import Mathlib.Data.List.Sort
import Splitcore.Money.Settlement

/-!
Payouts: moving what the ledger says is owed to the owner's bank. A run reads the payout,
verifies the attempt it finds, claims the next attempt, and only then calls the provider.
-/

namespace Splitcore.Money

open Interleaving Ledger

def MAX_AUTOMATIC_TRANSFER_ATTEMPTS : ℕ := 3

def STALE_PROCESSING_MS : ℤ := 15 * 60 * 1000

def OPEN_STATUSES : List PayoutStatus := [.QUEUED, .RETRYING, .PROCESSING]

def PAYSTACK_BANK_CODES : List (String × String) :=
  [("GTBank", "058"), ("Access Bank", "044"), ("First Bank", "011"), ("UBA", "033"),
    ("Zenith Bank", "057"), ("Stanbic IBTC", "221"), ("Sterling Bank", "232"),
    ("Polaris Bank", "076"), ("Wema Bank", "035"), ("Union Bank", "032"), ("Ecobank", "050"),
    ("Fidelity Bank", "070"), ("FCMB", "214"), ("Kuda Bank", "090267"), ("Opay", "999992")]

/-- Names of what every object inherits, such as `constructor`, are left out: there a lookup answers something that
is no bank code. -/
def resolveBankCode (bankName : String) : Option String := PAYSTACK_BANK_CODES.lookup bankName

/-- The reference of one attempt: `po_`, the payout's id without dashes, `_`, the attempt. -/
def transferReference (payoutId : Uuid) (attempt : ℕ) : String :=
  "po_" ++ String.ofList (payoutId.text.filter (· ≠ '-')) ++ "_" ++ toString attempt

/-- A payout with its ledger account, which its foreign key makes exist. -/
def payoutWithAccount (p : Payout → Bool) (db : Db) : Option (Payout × LedgerAccount) := do
  let payout ← db.payouts.find p
  let account ← db.ledgerAccounts.find (·.id == payout.ledgerAccountId)
  pure (payout, account)

def payoutForPosting (payout : Payout) (account : LedgerAccount) : PayoutForPosting :=
  ⟨account.type, account.ownerId, payout.amountKobo⟩

def enqueue (payoutId : Uuid) (delay : ℕ) : Prog App Unit := request (.addPayoutJob payoutId delay)

/-! ### Outcomes -/

/-- A conditional update and, if it found its row, the entries; `false` when it did not. -/
def claimAndPost (guard : Payout → Bool) (update : Payout → Payout) (origin : Origin)
    (transactionId : Uuid) (entries : List LedgerEntrySpec) : Tx Bool := do
  let count ← Model.payout.updateMany guard update
  if count = 0 then pure false
  else do
    post origin transactionId entries
    pure true

/-- `SUCCESS` and the debit of the payable account, or nothing if the payout is `SUCCESS`
already or has moved on to another reference. -/
def markSucceededTransaction (payoutId : Uuid) (reference : String) (transactionId : Uuid)
    (entries : List LedgerEntrySpec) : Tx Bool := do
  let now ← Tx.now
  claimAndPost
    (fun p => p.id == payoutId && p.transferReference == some reference && p.status != .SUCCESS)
    (fun p => { p with
      status := .SUCCESS, completedAt := some now, failureReason := none, updatedAt := now })
    .payout transactionId entries

def markSucceeded (payoutId : Uuid) (reference : String) : Prog App Unit := do
  let found ← query (.markSucceededFind payoutId) (payoutWithAccount (·.id == payoutId))
  match found with
  | none => .raise .recordNotFound
  | some (payout, account) => do
    let entries ← .ofExcept (computePayoutEntries (payoutForPosting payout account))
    let _ ← statement (.markSucceededTransaction payoutId)
      (markSucceededTransaction payoutId reference payout.transactionId entries)
    pure ()

/-- Terminal until somebody calls `retryPayout`. -/
def markForReview (payoutId : Uuid) (reason : String) : Prog App Unit :=
  statement (.markForReview payoutId) do
    let now ← Tx.now
    let _ ← Model.payout.updateMany (fun p => p.id == payoutId && p.status != .SUCCESS)
      (fun p => { p with
        status := .FAILED, failureReason := some ("MANUAL_REVIEW: " ++ reason), updatedAt := now })
    pure ()

def actionRequired : String :=
  "Action required: the provider will not complete this transfer without a human. " ++
  "For Paystack this means \"Disable OTP for Transfers\" is still switched on for the " ++
  "account (Settings > Preferences); until it is off, no payout can complete " ++
  "automatically. The transfer is live at the provider, so do not re-send it."

/-- The payout stays `PROCESSING`: the transfer is live at the provider. -/
def flagForOperator (payoutId : Uuid) : Prog App Unit :=
  statement (.flagForOperator payoutId) do
    let now ← Tx.now
    Model.payout.update (·.id == payoutId)
      (fun p => { p with failureReason := some actionRequired, updatedAt := now })

/-! ### Provider events -/

inductive TransferOutcome where
  | success | failed | reversed
deriving DecidableEq

def TransferOutcome.name : TransferOutcome → String
  | .success => "success" | .failed => "failed" | .reversed => "reversed"

/-- The obligation goes back on the payable account. -/
def reversedTransaction (payoutId : Uuid) (reference : String) (reason : Option String)
    (transactionId : Uuid) (entries : List LedgerEntrySpec) : Tx Bool := do
  let now ← Tx.now
  claimAndPost
    (fun p => p.id == payoutId && p.status == .SUCCESS && p.transferReference == some reference)
    (fun p => { p with
      status := .RETRYING, completedAt := none, failureReason := some (reason.getD "Reversed")
      updatedAt := now })
    .reversal transactionId entries

/-- Nothing was posted for the attempt; only the payout's state changes. -/
def retrying (payoutId : Uuid) (reference : String) (outcome : TransferOutcome)
    (reason : Option String) : Prog App Unit :=
  statement (.handleTransferEventRetrying payoutId) do
    let now ← Tx.now
    let _ ← Model.payout.updateMany
      (fun p => p.id == payoutId && p.transferReference == some reference && p.status != .SUCCESS)
      (fun p => { p with
        status := .RETRYING, failureReason := some (reason.getD ("Transfer " ++ outcome.name))
        updatedAt := now })
    pure ()

/-- Another automatic attempt, or a person. -/
def retryOrReview (payout : Payout) (outcome : TransferOutcome) (reason : Option String) :
    Prog App Unit :=
  if payout.attempts ≥ MAX_AUTOMATIC_TRANSFER_ATTEMPTS then
    markForReview payout.id ("Transfer " ++ outcome.name ++ " after " ++
      toString payout.attempts ++ " attempts: " ++ reason.getD "no reason given")
  else enqueue payout.id 60000

def handleTransferEvent (reference : String) (outcome : TransferOutcome)
    (reason : Option String) : Prog App Unit := do
  let found ← query (.handleTransferEventFind reference)
    (payoutWithAccount (·.transferReference == some reference))
  match found with
  | none => pure ()
  | some (payout, account) =>
    if outcome = .success then markSucceeded payout.id reference
    else if outcome = .reversed ∧ payout.status = .SUCCESS then do
      let entries ← .ofExcept (computePayoutReversalEntries (payoutForPosting payout account))
      let reversed ← statement (.handleTransferEventReversed payout.id)
        (reversedTransaction payout.id reference reason payout.transactionId entries)
      if reversed then retryOrReview payout outcome reason else pure ()
    else if payout.status ≠ .SUCCESS then do
      retrying payout.id reference outcome reason
      retryOrReview payout outcome reason
    else pure ()

/-! ### The destination -/

inductive PayoutDestination where
  | send (recipientName bankCode accountNumber transferReason : String)
  | hold (reason : String)
  | review (reason : String)
deriving DecidableEq

def entertainerDestination : Option Entertainer → PayoutDestination
  | none => .review "Entertainer for payable account not found"
  | some entertainer =>
    if entertainer.kycStatus ≠ .VERIFIED ∨ entertainer.accountConfirmedAt = none then
      .hold ("KYC " ++ entertainer.kycStatus.name ++ ", account confirmed: " ++
        toString entertainer.accountConfirmedAt.isSome)
    else match truthy entertainer.bankName, truthy entertainer.accountNumber with
      | some bankName, some accountNumber =>
        match truthy (entertainer.bankCode <|> resolveBankCode bankName) with
        | none => .review ("Unknown bank: " ++ bankName)
        | some bankCode => .send entertainer.legalName bankCode accountNumber
            ("Splitcore tip payout - " ++ entertainer.stageName)
      | _, _ => .review "Missing bank account details"

def venueDestination : Option Venue → PayoutDestination
  | none => .review "Venue for payable account not found"
  | some venue =>
    if venue.accountConfirmedAt = none then .hold "Venue payout account not confirmed"
    else match truthy venue.bankName, truthy venue.accountNumber with
      | some bankName, some accountNumber =>
        match truthy (venue.bankCode <|> resolveBankCode bankName) with
        | none => .review ("Unknown bank: " ++ bankName)
        | some bankCode => .send (venue.resolvedAccountName.getD venue.name) bankCode accountNumber
            ("Splitcore venue payout - " ++ venue.name)
      | _, _ => .review "Missing venue bank account details"

def resolveDestination (account : LedgerAccount) : Prog App PayoutDestination :=
  match account.ownerId, account.type with
  | none, type => pure (.review ("Payable account has no owner (" ++ type.name ++ ")"))
  | some ownerId, .ENTERTAINER_PAYABLE => do
    let entertainer ← query (.resolveDestinationEntertainer ownerId)
      (·.entertainers.find (·.id == ownerId))
    pure (entertainerDestination entertainer)
  | some ownerId, .VENUE_PAYABLE => do
    let venue ← query (.resolveDestinationVenue ownerId) (·.venues.find (·.id == ownerId))
    pure (venueDestination venue)
  | some _, type => pure (.review ("Unsupported payable account type: " ++ type.name))

/-! ### The worker's entry point -/

/-- Not payable yet: back to `QUEUED`, so the sweep looks again. -/
def hold (payout : Payout) : Prog App Unit :=
  if payout.status ≠ .QUEUED then
    statement (.processPayoutHold payout.id) do
      let now ← Tx.now
      let _ ← Model.payout.updateMany (fun p => p.id == payout.id && p.status == payout.status)
        (fun p => { p with status := .QUEUED, updatedAt := now })
      pure ()
  else pure ()

/-- The attempts guard makes a concurrent worker lose the race. -/
def claimAttempt (payout : Payout) : Prog App ℕ :=
  statement (.processPayoutClaim payout.id) do
    let now ← Tx.now
    Model.payout.updateMany
      (fun p => p.id == payout.id && OPEN_STATUSES.contains p.status &&
        p.attempts == payout.attempts)
      (fun p => { p with
        status := .PROCESSING, attempts := payout.attempts + 1
        transferReference := some (transferReference payout.id (payout.attempts + 1))
        attemptedAt := some now, failureReason := none, updatedAt := now })

def saveRecipient (payoutId : Uuid) (recipientCode : String) : Prog App Unit :=
  statement (.processPayoutRecipient payoutId) do
    let now ← Tx.now
    Model.payout.update (·.id == payoutId)
      (fun p => { p with recipientCode := some recipientCode, updatedAt := now })

/-- What the answer to `initiateTransfer` leads to; a pending transfer waits for its webhook. -/
def transferAnswered (payout : Payout) (reference : String) (transfer : Transfer) :
    Prog App Unit :=
  match transfer.status with
  | .success => markSucceeded payout.id reference
  | .failed | .reversed => handleTransferEvent reference .failed transfer.failureReason
  | .requires_action => flagForOperator payout.id
  | .pending => pure ()

/-- The attempt is claimed and its reference stored; now the provider. -/
def sendTransfer (payout : Payout) (account : LedgerAccount)
    (recipientName bankCode accountNumber transferReason : String) : Prog App Unit := do
  let recipientCode ← request (.createRecipient ⟨recipientName, accountNumber, bankCode,
    account.ownerId, account.type⟩)
  saveRecipient payout.id recipientCode
  let transfer ← request (.initiateTransfer
    { amountKobo := payout.amountKobo, recipientCode
      reference := transferReference payout.id (payout.attempts + 1), reason := transferReason
      payoutId := payout.id, transactionId := payout.transactionId })
  transferAnswered payout (transferReference payout.id (payout.attempts + 1)) transfer

/-- A new attempt, once the last one is known to have moved no money. -/
def newAttempt (payout : Payout) (account : LedgerAccount) : Prog App Unit := do
  let destination ← resolveDestination account
  match destination with
  | .review reason => markForReview payout.id reason
  | .hold _ => hold payout
  | .send recipientName bankCode accountNumber transferReason => do
    let count ← claimAttempt payout
    if count = 0 then pure ()
    else sendTransfer payout account recipientName bankCode accountNumber transferReason

def processPayout (payoutId : Uuid) : Prog App Unit := do
  let found ← query (.processPayoutFind payoutId) (payoutWithAccount (·.id == payoutId))
  match found with
  | none => pure ()
  | some (payout, account) =>
    if !OPEN_STATUSES.contains payout.status then pure ()
    else match truthy payout.transferReference with
      | none => newAttempt payout account
      | some reference => do
        let previous ← request (.verifyTransfer reference)
        match previous with
        | .success => markSucceeded payout.id reference
        | .pending => pure ()
        | .requires_action => flagForOperator payout.id
        | .failed | .reversed | .not_found => newAttempt payout account

/-! ### Retries and the sweep -/

def retryPayout (payoutId : Uuid) : Prog App Payout := do
  let count ← statement (.retryPayoutClaim payoutId) do
    let now ← Tx.now
    Model.payout.updateMany (fun p => p.id == payoutId && p.status == .FAILED)
      (fun p => { p with status := .RETRYING, failureReason := none, updatedAt := now })
  if count = 0 then do
    let found ← query (.retryPayoutExists payoutId) (·.payouts.find (·.id == payoutId))
    match found with
    | none => .raise (.notFound "Payout not found")
    | some payout => .raise (.conflict ("Payout is " ++ payout.status.name ++
        "; only FAILED payouts can be retried"))
  else do
    enqueue payoutId 0
    statement (.retryPayoutReload payoutId) (Model.payout.findUniqueOrThrow (·.id == payoutId))

/-- Whether the sweep looks at a payout. -/
def isCandidate (now : Time) (payout : Payout) (account : LedgerAccount) : Bool :=
  isPayable account.type && (payout.status == .QUEUED || payout.status == .RETRYING ||
    payout.status == .PROCESSING && decide (payout.updatedAt < now - STALE_PROCESSING_MS))

/-- At most 500 payouts, in whatever order the database returns them. -/
def sweepCandidates : Tx (List (Uuid × LedgerAccount)) := do
  let now ← Tx.now
  let rank ← Tx.rank
  let rows ← Tx.read fun db => db.payouts.rows.insertionSort fun p q => rank p.id ≤ rank q.id
  let candidates ← Tx.read fun db => rows.filterMap fun payout => do
    let account ← db.ledgerAccounts.find (·.id == payout.ledgerAccountId)
    if isCandidate now payout account then some (payout.id, account) else none
  pure (candidates.take 500)

def ownerIdsFor (type : LedgerAccountType) (candidates : List (Uuid × LedgerAccount)) :
    List Uuid :=
  candidates.filterMap fun c => if c.2.type = type then c.2.ownerId else none

def enqueueAll : List Uuid → Prog App Unit
  | [] => pure ()
  | payoutId :: payoutIds => do
    enqueue payoutId 0
    enqueueAll payoutIds

def enqueueDuePayouts : Prog App ℕ := do
  let candidates ← statement .enqueueDuePayoutsCandidates sweepCandidates
  let payableEntertainers ← query .enqueueDuePayoutsEntertainers fun db =>
    (db.entertainers.rows.filter fun e =>
      (ownerIdsFor .ENTERTAINER_PAYABLE candidates).contains e.id && e.kycStatus == .VERIFIED &&
        e.accountConfirmedAt.isSome).map (·.id)
  let payableVenues ← query .enqueueDuePayoutsVenues fun db =>
    (db.venues.rows.filter fun v => (ownerIdsFor .VENUE_PAYABLE candidates).contains v.id &&
      v.accountConfirmedAt.isSome).map (·.id)
  let due := candidates.filter fun c =>
    c.2.ownerId.any (payableEntertainers ++ payableVenues).contains
  enqueueAll (due.map Prod.fst)
  pure due.length

end Splitcore.Money
