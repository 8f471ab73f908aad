import Splitcore.Onboarding.Kyc

/-!
A venue's own payout destination: bank details, the holder's name as the bank gives it, the
venue's confirmation of it. A venue is vetted before it is onboarded, so no identity is checked.
-/

namespace Splitcore.Onboarding.VenueAccount

open Interleaving

inductive VenuePayoutAccountStep where
  | BANK_DETAILS | RESOLVE_ACCOUNT | CONFIRM_ACCOUNT | DONE
deriving DecidableEq

structure VenuePayoutAccountView where
  venueId : Uuid
  venueName : String
  nextStep : VenuePayoutAccountStep
  bankName : Option String
  bankCode : Option String
  accountNumberMasked : Option String
  resolvedAccountName : Option String
  accountResolvedAt : Option Time
  accountConfirmedAt : Option Time
  payoutsEnabled : Bool
deriving DecidableEq

def nextStepFor (v : Venue) : VenuePayoutAccountStep :=
  if truthy v.accountNumber = none ∨ truthy v.bankCode = none then .BANK_DETAILS
  else if truthy v.resolvedAccountName = none then .RESOLVE_ACCOUNT
  else if v.accountConfirmedAt = none then .CONFIRM_ACCOUNT
  else .DONE

def toView (v : Venue) : VenuePayoutAccountView where
  venueId := v.id
  venueName := v.name
  nextStep := nextStepFor v
  bankName := v.bankName
  bankCode := v.bankCode
  accountNumberMasked := maskAccountNumber v.accountNumber
  resolvedAccountName := v.resolvedAccountName
  accountResolvedAt := v.accountResolvedAt
  accountConfirmedAt := v.accountConfirmedAt
  payoutsEnabled := v.accountConfirmedAt.isSome

/-- The `CHECK` of the table. -/
def venueChecks (v : Venue) : Bool := v.accountConfirmedAt.isNone || v.resolvedAccountName.isSome

def updateVenue (venueId : Uuid) (data : Venue → Venue) : Tx Venue :=
  Model.venue.updateOne venueChecks (·.id == venueId) data

def find (venueId : Uuid) : Prog App Venue := do
  let found ← query (.payoutAccountFind venueId) (·.venues.find (·.id == venueId))
  match found with
  | none => .raise (.notFound ("Venue " ++ String.ofList venueId.text ++ " not found"))
  | some venue => pure venue

variable (toUpperCase : String → String)

def bankDetailsCaptured (bank : Bank) (accountNumber : String) (changed : Bool) (v : Venue) :
    Venue :=
  let captured := { v with
    bankName := some bank.name, bankCode := some bank.code, accountNumber := some accountNumber }
  if changed then { captured with
    resolvedAccountName := none, accountResolvedAt := none, accountConfirmedAt := none }
  else captured

/-- The venue is read again once the bank is known. -/
def submitBankDetails (venueId : Uuid) (input : BankDetails) : Prog App VenuePayoutAccountView := do
  let _ ← find venueId
  let banks ← request .listBanks
  let bank ← .ofExcept (resolveBank toUpperCase banks input)
  let venue ← find venueId
  let changed := decide (venue.accountNumber ≠ some input.accountNumber ∨
    venue.bankCode ≠ some bank.code)
  let updated ← statement (.payoutAccountSubmit venueId input.accountNumber bank.code changed) <|
    updateVenue venueId (bankDetailsCaptured bank input.accountNumber changed)
  pure (toView updated)

def accountResolved (accountName : String) (now : Time) (v : Venue) : Venue :=
  { v with
    resolvedAccountName := some accountName, accountResolvedAt := some now
    accountConfirmedAt := none }

def resolveWithBank (venueId : Uuid) (accountNumber bankCode : String) : Prog App Venue := do
  let resolved ← request (.resolveAccount accountNumber bankCode)
  statement (.payoutAccountResolve venueId) do
    let now ← Tx.now
    updateVenue venueId (accountResolved resolved.accountName now)

/-- A venue has no status a rejection could be stored in. -/
def resolveAccount (venueId : Uuid) : Prog App VenuePayoutAccountView := do
  let venue ← find venueId
  match truthy venue.accountNumber, truthy venue.bankCode with
  | some accountNumber, some bankCode => do
    let result ← (resolveWithBank venueId accountNumber bankCode).attempt
    match result with
    | .ok updated => pure (toView updated)
    | .error (.accountResolution message) =>
      .raise (.badRequest ("Account could not be resolved: " ++ message))
    | .error e => .raise e
  | _, _ => .raise (.badRequest
      "Bank details must be submitted before the account can be resolved.")

def confirmAccount (venueId : Uuid) (confirmedName : String) :
    Prog App VenuePayoutAccountView := do
  let venue ← find venueId
  match truthy venue.resolvedAccountName with
  | none => .raise (.badRequest "The account must be resolved before it can be confirmed.")
  | some resolvedAccountName =>
    if normalizeName toUpperCase confirmedName ≠ normalizeName toUpperCase resolvedAccountName then
      .raise (.badRequest ("The confirmed name does not match the name the bank returned. " ++
        "Resolve the account again."))
    else do
      let updated ← statement (.payoutAccountConfirm venueId) do
        let now ← Tx.now
        updateVenue venueId fun v => { v with accountConfirmedAt := some now }
      pure (toView updated)

end Splitcore.Onboarding.VenueAccount
