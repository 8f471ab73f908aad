import Splitcore.App
import Splitcore.Ledger.Repository

/-!
Settlement: the code path that moves a payment to `SUCCESS`. It verifies with the provider
and then, in one transaction, claims the payment, posts the ledger and creates the payouts.
-/

namespace Splitcore.Money

open Interleaving Ledger

def SETTLEMENT_CURRENCY : String := "NGN"

def SETTLEABLE : List PaymentStatus := [.CREATED, .PENDING, .FAILED, .ABANDONED]

def transition (id : Uuid) (source : List PaymentStatus) (target : PaymentStatus) :
    Prog App Unit :=
  statement (.transition id) do
    let now ← Tx.now
    let _ ← Model.paymentTransaction.updateMany
      (fun p => p.id == id && source.contains p.status)
      (fun p => { p with status := target, updatedAt := now })
    pure ()

def reload (id : Uuid) : Prog App PaymentTransaction :=
  statement (.reload id) (Model.paymentTransaction.findUniqueOrThrow (·.id == id))

/-! ### The settlement transaction -/

/-- `tx.paymentTransaction.updateMany`: exactly one caller wins. -/
def claimPayment (id : Uuid) : Tx ℕ := do
  let now ← Tx.now
  Model.paymentTransaction.updateMany (fun p => p.id == id && SETTLEABLE.contains p.status)
    (fun p => { p with status := .SUCCESS, updatedAt := now })

def createPayout (ledgerAccountId transactionId : Uuid) (amountKobo : ℤ) : Tx Uuid := do
  let id ← Tx.freshId
  let now ← Tx.now
  if amountKobo ≤ 0 then Tx.throw .checkViolation
  else do
    Model.payout.create
      { id, ledgerAccountId, transactionId, amountKobo
        transferReference := none, recipientCode := none, status := .QUEUED, attempts := 0
        attemptedAt := none, completedAt := none, failureReason := none, updatedAt := now }
    pure id

/-- The lines that become obligations. -/
def isObligation (entry : LedgerEntrySpec) : Bool :=
  entry.direction == .CREDIT && isPayable entry.accountType

def createPayouts (transactionId : Uuid) : List LedgerEntrySpec → Tx (List Uuid)
  | [] => pure []
  | entry :: entries =>
    if !isObligation entry then createPayouts transactionId entries
    else do
      let ledgerAccountId ← resolveAccountId entry.accountType entry.ownerId
      let id ← createPayout ledgerAccountId transactionId entry.amountKobo
      let ids ← createPayouts transactionId entries
      pure (id :: ids)

/-- `none` when somebody else settled the payment. -/
def settleTransaction (paymentId : Uuid) (entries : List LedgerEntrySpec) :
    Tx (Option (List Uuid)) := do
  let count ← claimPayment paymentId
  if count = 0 then pure none
  else do
    post .settlement paymentId entries
    let ids ← createPayouts paymentId entries
    pure (some ids)

/-! ### The service -/

/-- Best effort: the sweep picks up what could not be enqueued. -/
def enqueuePayouts : List Uuid → Prog App Unit
  | [] => pure ()
  | payoutId :: payoutIds => do
    let _ ← (request (.addPayoutJob payoutId 0)).attempt
    enqueuePayouts payoutIds

/-- The fields that decide how a payment is divided. -/
def paymentForPosting (p : PaymentTransaction) : PaymentForPosting :=
  ⟨p.grossAmountKobo, p.venueId, p.entertainerId⟩

def splitForPosting (r : SplitRule) : SplitForPosting :=
  ⟨r.entertainerBps, r.venueBps, r.platformBps⟩

/-- What of a successful charge does not match the payment. -/
def integrityError (payment : PaymentTransaction) (verification : PaymentVerification) :
    Option String :=
  if verification.amountKobo ≠ payment.grossAmountKobo then
    some ("Amount mismatch: initialized " ++ toString payment.grossAmountKobo ++
      " kobo, provider reports " ++ toString verification.amountKobo ++ " kobo")
  else match (truthy verification.currency).filter (· ≠ SETTLEMENT_CURRENCY) with
    | some currency => some ("Currency mismatch: expected " ++ SETTLEMENT_CURRENCY ++
        ", provider reports " ++ currency)
    | none => none

/-- A charge the provider confirmed, for what was initialized. -/
def settleVerified (reference : String) (payment : PaymentTransaction) :
    Prog App (Option PaymentTransaction) :=
  match payment.splitRuleId with
  | none => .raise (.settlementIntegrity
      "Payment has no split rule snapshot; refusing to invent a split" reference)
  | some splitRuleId => do
    let splitRule ← statement (.settleSplitRule splitRuleId)
      (Model.splitRule.findUniqueOrThrow (·.id == splitRuleId))
    let entries ← .ofExcept (computePaymentEntries (paymentForPosting payment)
      (splitForPosting splitRule))
    match ← statement (.settleTransaction payment.id) (settleTransaction payment.id entries) with
    | none => some <$> reload payment.id
    | some payoutIds => do
      enqueuePayouts payoutIds
      some <$> reload payment.id

def settle (reference : String) : Prog App (Option PaymentTransaction) := do
  let found ← query (.settleFind reference)
    (·.payments.find (·.externalReference == reference))
  match found with
  | none => pure none
  | some payment =>
    if !SETTLEABLE.contains payment.status then pure (some payment)
    else do
      let verification ← request (.verifyPayment reference)
      match verification.status with
      | .failed => do
        transition payment.id [.CREATED, .PENDING] .FAILED
        some <$> reload payment.id
      | .abandoned | .pending => do
        transition payment.id [.CREATED] .PENDING
        some <$> reload payment.id
      | .success =>
        match integrityError payment verification with
        | some message => .raise (.settlementIntegrity message reference)
        | none => settleVerified reference payment

end Splitcore.Money
