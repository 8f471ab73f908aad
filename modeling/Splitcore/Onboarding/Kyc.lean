import Splitcore.Onboarding.Banks

/-!
Entertainer onboarding: bank details, the holder's name as the bank gives it, the
entertainer's confirmation of it, an identity check.
-/

namespace Splitcore.Onboarding

open Interleaving

/-! ### What a caller is shown -/

inductive KycStep where
  | BANK_DETAILS | RESOLVE_ACCOUNT | CONFIRM_ACCOUNT | VERIFY_IDENTITY | DONE
deriving DecidableEq

structure KycStatusView where
  entertainerId : Uuid
  status : KycStatus
  nextStep : KycStep
  bankName : Option String
  bankCode : Option String
  accountNumberMasked : Option String
  resolvedAccountName : Option String
  accountConfirmedAt : Option Time
  identityCheckType : Option String
  identityCheckedAt : Option Time
  failureReason : Option String
  payoutsEnabled : Bool
deriving DecidableEq

/-- Never a full account number: its last four characters. -/
def maskAccountNumber (accountNumber : Option String) : Option String :=
  (truthy accountNumber).map fun s => String.ofList
    (List.replicate (s.toList.length - 4) '*' ++ s.toList.drop (s.toList.length - 4))

/-- Bank details and confirmation come before `VERIFIED`: entertainers older than onboarding are
verified without a confirmed account. -/
def nextStepFor (e : Entertainer) : KycStep :=
  if truthy e.accountNumber = none ∨ truthy e.bankCode = none then .BANK_DETAILS
  else if truthy e.resolvedAccountName = none then .RESOLVE_ACCOUNT
  else if e.accountConfirmedAt = none then .CONFIRM_ACCOUNT
  else if e.kycStatus = .VERIFIED then .DONE
  else .VERIFY_IDENTITY

def toView (e : Entertainer) : KycStatusView where
  entertainerId := e.id
  status := e.kycStatus
  nextStep := nextStepFor e
  bankName := e.bankName
  bankCode := e.bankCode
  accountNumberMasked := maskAccountNumber e.accountNumber
  resolvedAccountName := e.resolvedAccountName
  accountConfirmedAt := e.accountConfirmedAt
  identityCheckType := e.identityCheckType
  identityCheckedAt := e.identityCheckedAt
  failureReason := e.kycFailureReason
  payoutsEnabled := e.kycStatus == .VERIFIED && e.accountConfirmedAt.isSome

/-! ### Rows -/

/-- The `CHECK`s of the table. -/
def entertainerChecks (e : Entertainer) : Bool :=
  (e.accountConfirmedAt.isNone || e.resolvedAccountName.isSome) &&
    e.identityCheckType.all ["BVN", "NIN"].contains

def updateEntertainer (entertainerId : Uuid) (data : Entertainer → Entertainer) : Tx Entertainer :=
  Model.entertainer.updateOne entertainerChecks (·.id == entertainerId) data

def find (entertainerId : Uuid) : Prog App Entertainer := do
  let found ← query (.kycFind entertainerId) (·.entertainers.find (·.id == entertainerId))
  match found with
  | none => .raise (.notFound ("Entertainer " ++ String.ofList entertainerId.text ++ " not found"))
  | some entertainer => pure entertainer

def assertNotSuspended (entertainer : Entertainer) : Prog App Unit :=
  if entertainer.kycStatus = .SUSPENDED then .raise (.conflict
    "This entertainer is suspended. A platform admin must lift the suspension first.")
  else pure ()

/-! ### The steps -/

variable (toUpperCase : String → String)

/-- A new destination clears everything found out about the one before. -/
def bankDetailsCaptured (bank : Bank) (accountNumber : String) (changed : Bool) (now : Time)
    (e : Entertainer) : Entertainer :=
  let captured := { e with
    bankName := some bank.name, bankCode := some bank.code, accountNumber := some accountNumber
    kycStatus := .PENDING, kycSubmittedAt := some now }
  if changed then { captured with
    resolvedAccountName := none, accountResolvedAt := none, accountConfirmedAt := none
    kycVerifiedAt := none, identityCheckType := none, identityCheckedAt := none
    kycFailureReason := none }
  else captured

def submitBankDetails (entertainerId : Uuid) (input : BankDetails) : Prog App KycStatusView := do
  let entertainer ← find entertainerId
  assertNotSuspended entertainer
  let banks ← request .listBanks
  let bank ← .ofExcept (resolveBank toUpperCase banks input)
  let changed := decide (entertainer.accountNumber ≠ some input.accountNumber ∨
    entertainer.bankCode ≠ some bank.code)
  let updated ← statement
      (.submitBankDetails entertainerId input.accountNumber bank.code changed) do
    let now ← Tx.now
    updateEntertainer entertainerId (bankDetailsCaptured bank input.accountNumber changed now)
  pure (toView updated)

/-- Resolving again takes back a confirmation: what is confirmed is the name returned last. -/
def accountResolved (accountName : String) (now : Time) (e : Entertainer) : Entertainer :=
  { e with
    resolvedAccountName := some accountName, accountResolvedAt := some now
    accountConfirmedAt := none, kycStatus := .PENDING, kycFailureReason := none }

/-- Asks the bank, and stores what it said. -/
def resolveWithBank (entertainerId : Uuid) (accountNumber bankCode : String) :
    Prog App Entertainer := do
  let resolved ← request (.resolveAccount accountNumber bankCode)
  statement (.resolveAccount entertainerId) do
    let now ← Tx.now
    updateEntertainer entertainerId (accountResolved resolved.accountName now)

def resolveAccount (entertainerId : Uuid) : Prog App KycStatusView := do
  let entertainer ← find entertainerId
  assertNotSuspended entertainer
  match truthy entertainer.accountNumber, truthy entertainer.bankCode with
  | some accountNumber, some bankCode => do
    let result ← (resolveWithBank entertainerId accountNumber bankCode).attempt
    match result with
    | .ok updated => pure (toView updated)
    | .error (.accountResolution message) => do
      let updated ← statement (.resolveAccountFailed entertainerId) <|
        updateEntertainer entertainerId fun e => { e with
          kycStatus := .FAILED, kycFailureReason := some message }
      .raise (.accountUnresolved ("Account could not be resolved: " ++ message) updated)
    | .error e => .raise e
  | _, _ => .raise (.badRequest
      "Bank details must be submitted before the account can be resolved.")

def confirmAccount (entertainerId : Uuid) (confirmedName : String) : Prog App KycStatusView := do
  let entertainer ← find entertainerId
  assertNotSuspended entertainer
  match truthy entertainer.resolvedAccountName with
  | none => .raise (.badRequest "The account must be resolved before it can be confirmed.")
  | some resolvedAccountName =>
    if normalizeName toUpperCase confirmedName ≠ normalizeName toUpperCase resolvedAccountName then
      .raise (.badRequest ("The confirmed name does not match the name the bank returned. " ++
        "Resolve the account again."))
    else do
      let updated ← statement (.confirmAccount entertainerId) do
        let now ← Tx.now
        updateEntertainer entertainerId fun e => { e with
          accountConfirmedAt := some now, kycStatus := .PENDING, kycFailureReason := none }
      pure (toView updated)

/-- The first token, and the others as the surname. -/
def splitLegalName (legalName : String) : String × String :=
  match words legalName with
  | [] => ("", "")
  | [name] => (name, name)
  | firstName :: rest => (firstName, " ".intercalate rest)

/-- An unavailable check has neither verified nor failed anybody: a person decides. -/
def identityChecked (documentType : IdentityDocumentType) (result : IdentityCheckResult)
    (now : Time) (e : Entertainer) : Entertainer :=
  match result.outcome with
  | .verified => { e with
      kycStatus := .VERIFIED, kycVerifiedAt := some now
      identityCheckType := some documentType.name, identityCheckedAt := some now
      kycFailureReason := none }
  | .failed => { e with
      kycStatus := .FAILED, identityCheckType := some documentType.name
      identityCheckedAt := some now
      kycFailureReason := some (result.reason.getD "Identity verification failed.") }
  | .unavailable => { e with
      kycStatus := .REVIEW, identityCheckType := some documentType.name, identityCheckedAt := none
      kycFailureReason := some
        (result.reason.getD "Identity verification could not be completed.") }

def verifyIdentity (entertainerId : Uuid) (documentType : IdentityDocumentType)
    (documentNumber : String) : Prog App KycStatusView := do
  let entertainer ← find entertainerId
  assertNotSuspended entertainer
  if entertainer.accountConfirmedAt = none then
    .raise (.badRequest "The bank account must be confirmed before identity verification.")
  else if entertainer.kycStatus = .VERIFIED then
    .raise (.conflict "This entertainer is already verified.")
  else do
    let (firstName, lastName) := splitLegalName entertainer.legalName
    let result ← request (.verifyIdentity ⟨documentType, documentNumber, firstName, lastName,
      entertainer.accountNumber, entertainer.bankCode⟩)
    let updated ← statement (.verifyIdentity entertainerId) do
      let now ← Tx.now
      updateEntertainer entertainerId (identityChecked documentType result now)
    pure (toView updated)

inductive ReviewDecision where
  | APPROVE | REJECT
deriving DecidableEq

def reviewDecided (decision : ReviewDecision) (reason : String) (now : Time)
    (e : Entertainer) : Entertainer :=
  match decision with
  | .APPROVE => { e with
      kycStatus := .VERIFIED, kycVerifiedAt := some now
      kycFailureReason := some ("Manually approved: " ++ reason) }
  | .REJECT => { e with
      kycStatus := .FAILED, kycFailureReason := some ("Manually rejected: " ++ reason) }

def decideReview (entertainerId : Uuid) (decision : ReviewDecision) (reason : String) :
    Prog App KycStatusView := do
  let entertainer ← find entertainerId
  if entertainer.kycStatus ≠ .REVIEW then
    .raise (.conflict ("Entertainer is " ++ entertainer.kycStatus.name ++
      "; only REVIEW can be decided manually."))
  else if decision = .APPROVE ∧ entertainer.accountConfirmedAt = none then
    .raise (.badRequest "Cannot approve: the bank account has not been resolved and confirmed.")
  else do
    let updated ← statement (.decideReview entertainerId) do
      let now ← Tx.now
      updateEntertainer entertainerId (reviewDecided decision reason now)
    pure (toView updated)

end Splitcore.Onboarding
