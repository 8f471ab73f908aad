import Splitcore.Interleaving.Monitor
import Splitcore.Interleaving.Outcome
import Splitcore.Tx

/-!
What the services are written over: the statements they send to the database, each with the
arguments that select its rows, and the calls they make to the payment and payout providers
and to the queues.
-/

namespace Splitcore

open Interleaving

/-! ### Providers -/

inductive PaymentVerification.Status where
  | success | failed | abandoned | pending
deriving DecidableEq

structure PaymentVerification where
  status : PaymentVerification.Status
  amountKobo : ℤ
  currency : Option String
deriving DecidableEq

structure InitializePaymentParams where
  reference : String
  amountKobo : ℤ
  email : Option String
  callbackUrl : Option String
  transactionId : Uuid
  venueId : Uuid
  entertainerId : Option Uuid
deriving DecidableEq

structure PaymentInitResult where
  authorizationUrl : String
  accessCode : String
deriving DecidableEq

structure RecipientParams where
  name : String
  accountNumber : String
  bankCode : String
  ownerId : Option Uuid
  accountType : LedgerAccountType
deriving DecidableEq

structure TransferParams where
  amountKobo : ℤ
  recipientCode : String
  reference : String
  reason : String
  payoutId : Uuid
  transactionId : Uuid
deriving DecidableEq

inductive Transfer.Status where
  | pending | success | failed | reversed | requires_action
deriving DecidableEq

structure Transfer where
  status : Transfer.Status
  failureReason : Option String
deriving DecidableEq

inductive TransferVerification.Status where
  | pending | success | failed | reversed | requires_action | not_found
deriving DecidableEq

/-- A bank of the list `BanksService` keeps. -/
structure Bank where
  name : String
  code : String
deriving DecidableEq

/-- What the bank says about an account number. -/
structure ResolvedAccount where
  accountNumber : String
  bankCode : String
  accountName : String
deriving DecidableEq

inductive IdentityDocumentType where
  | BVN | NIN
deriving DecidableEq

def IdentityDocumentType.name : IdentityDocumentType → String
  | .BVN => "BVN" | .NIN => "NIN"

inductive IdentityOutcome where
  | verified | failed | unavailable
deriving DecidableEq

structure IdentityCheckResult where
  outcome : IdentityOutcome
  reason : Option String
deriving DecidableEq

structure IdentityParams where
  documentType : IdentityDocumentType
  documentNumber : String
  firstName : String
  lastName : String
  accountNumber : Option String
  bankCode : Option String
deriving DecidableEq

/-- What a session token says of its bearer. -/
structure JwtPayload where
  sub : Uuid
  email : String
  role : Role
  entertainerId : Option Uuid
deriving DecidableEq

/-! ### Calls -/

/-- A call to somebody else. -/
inductive Ask where
  | verifyPayment (reference : String)
  | initializePayment (params : InitializePaymentParams)
  | verifyTransfer (reference : String)
  | createRecipient (params : RecipientParams)
  | initiateTransfer (params : TransferParams)
  | addPayoutJob (payoutId : Uuid) (delay : ℕ)
  | listBanks
  | resolveAccount (accountNumber bankCode : String)
  | verifyIdentity (params : IdentityParams)
  | signAsync (payload : JwtPayload) (expiresIn : String)
deriving DecidableEq

/-- What it answers: a recipient is known by its code, a verified transfer by its status, and
the banks are the usable ones `BanksService` has at hand. -/
@[reducible] def Ans : Ask → Type
  | .verifyPayment _ => PaymentVerification
  | .initializePayment _ => PaymentInitResult
  | .verifyTransfer _ => TransferVerification.Status
  | .createRecipient _ => String
  | .initiateTransfer _ => Transfer
  | .addPayoutJob _ _ => Unit
  | .listBanks => List Bank
  | .resolveAccount _ _ => ResolvedAccount
  | .verifyIdentity _ => IdentityCheckResult
  | .signAsync _ _ => String

/-! ### Statements -/

/-- The statements of the services, in the order of the source. That of a submission carries the
bank details it writes, and whether it also clears what was found out about earlier ones. -/
inductive Site where
  -- PaymentSettlementService
  | settleFind (reference : String)
  | settleSplitRule (id : Uuid)
  | settleTransaction (paymentId : Uuid)
  | transition (id : Uuid)
  | reload (id : Uuid)
  -- PaymentsService
  | initializePaymentSession (id : Uuid)
  | initializePaymentRule (venueId : Uuid)
  | initializePaymentCreate
  | initializePaymentFailed (id : Uuid)
  | getPaymentStatusExisting (reference : String)
  | getPaymentStatusPayment (reference : String)
  -- PayoutsService
  | processPayoutFind (payoutId : Uuid)
  | processPayoutHold (payoutId : Uuid)
  | processPayoutClaim (payoutId : Uuid)
  | processPayoutRecipient (payoutId : Uuid)
  | resolveDestinationEntertainer (ownerId : Uuid)
  | resolveDestinationVenue (ownerId : Uuid)
  | flagForOperator (payoutId : Uuid)
  | handleTransferEventFind (reference : String)
  | handleTransferEventReversed (payoutId : Uuid)
  | handleTransferEventRetrying (payoutId : Uuid)
  | retryPayoutClaim (payoutId : Uuid)
  | retryPayoutExists (payoutId : Uuid)
  | retryPayoutReload (payoutId : Uuid)
  | enqueueDuePayoutsCandidates
  | enqueueDuePayoutsEntertainers
  | enqueueDuePayoutsVenues
  | markSucceededFind (payoutId : Uuid)
  | markSucceededTransaction (payoutId : Uuid)
  | markForReview (payoutId : Uuid)
  -- EntertainersService
  | entertainerCreate
  | entertainerUpdate (id : Uuid)
  | entertainerDeactivate (id : Uuid)
  | linkToVenue (entertainerId venueId : Uuid)
  | unlinkFind (entertainerId venueId : Uuid)
  | unlinkDelete (linkId : Uuid)
  -- QrCodesService
  | qrCodeVenue (venueId : Uuid)
  | qrCodeEntertainer (entertainerId : Uuid)
  | qrCodeLink (venueId entertainerId : Uuid)
  | qrCodeCreate
  | qrCodeDeactivate (id : Uuid)
  | qrCodeRegenerate (id : Uuid)
  -- KycService
  | kycFind (entertainerId : Uuid)
  | submitBankDetails (entertainerId : Uuid) (accountNumber bankCode : String) (changed : Bool)
  | resolveAccount (entertainerId : Uuid)
  | resolveAccountFailed (entertainerId : Uuid)
  | confirmAccount (entertainerId : Uuid)
  | verifyIdentity (entertainerId : Uuid)
  | decideReview (entertainerId : Uuid)
  -- VenuePayoutAccountService
  | payoutAccountFind (venueId : Uuid)
  | payoutAccountSubmit (venueId : Uuid) (accountNumber bankCode : String) (changed : Bool)
  | payoutAccountResolve (venueId : Uuid)
  | payoutAccountConfirm (venueId : Uuid)
  -- WebhooksService
  | webhookCreate (externalEventId : String)
  | webhookExisting (externalEventId : String)
  | webhookAdd (webhookEventId : Uuid)
  -- WebhookEventHandler
  | webhookFind (webhookEventId : Uuid)
  | webhookProcessing (webhookEventId : Uuid)
  | webhookParked (webhookEventId : Uuid)
  | webhookFailed (webhookEventId : Uuid)
  | webhookCompleted (webhookEventId : Uuid)
  -- EntertainerAuthService
  | issueLoginLinkEntertainer (entertainerId : Uuid)
  | issueLoginLinkToken (entertainerId : Uuid)
  | issueLoginLinkSupersede (entertainerId : Uuid)
  | issueLoginLinkCreate (entertainerId : Uuid)
  | redeemFind (tokenHash : String)
  | redeemNow (tokenId : Uuid)
  | redeemClaim (tokenId : Uuid)
deriving DecidableEq

@[reducible] def App : Sig where
  Name := Site
  Store := Db
  Input := Input
  Ask := Ask
  Ans := Ans
  Err := Err

/-- A statement, or a transaction. -/
def statement {α : Type} (site : Site) (m : Tx α) : Prog App α := .command site m.run

def query {α : Type} (site : Site) (f : Db → α) : Prog App α := .query site f

def request (q : Ask) : Prog App (Ans q) := @Prog.request App q

section Outcome

variable {α : Type} {w : Input} {o : (q : Ask) → Except Err (Ans q)} {db db' : Db} {site : Site} {m : Tx α}

lemma outcome_statement_ok {a : α} (h : m.run w db = .ok (a, db')) :
    outcome w o (statement site m) db = (.ok a, db') := outcome_command_ok h

lemma outcome_statement_error {e : Err} (h : m.run w db = .error e) :
    outcome w o (statement site m) db = (.error e, db) := outcome_command_error h

lemma query_outcome {f : Db → α} : outcome w o (query site f) db = (.ok (f db), db) := rfl

lemma request_outcome {q : Ask} : outcome w o (request q) db = (o q, db) :=
  @outcome_request App w o db q

end Outcome

/-! ### JavaScript's `!x` and `x ?? y` on strings -/

/-- The string, unless it is null or empty. -/
def truthy (s : Option String) : Option String := s.filter (· ≠ "")

end Splitcore
