import Mathlib.Data.Nat.Digits.Defs
import Splitcore.Relational.Table

/-!
The database: the tables of the Prisma schema, with the columns the services read or write,
and the unique indexes of the migrations. The webhook queue, which BullMQ keeps in Redis, stands
beside them as a table of jobs.

Ledger entries carry one thing the schema has no column for: the posting they were written
in, and which code path wrote it. Nothing in the services reads it.
-/

namespace Splitcore

open Relational

/-! ### Identifiers -/

/-- Identifiers are UUIDs, as Prisma's `uuid()` and `gen_random_uuid()` make them. -/
structure Uuid where
  bits : BitVec 128
deriving DecidableEq, Inhabited

namespace Uuid

/-- The 32 hexadecimal digits, most significant first. -/
def hex (u : Uuid) : List Char :=
  (List.range 32).map fun i => Nat.digitChar (u.bits.toNat / 16 ^ (31 - i) % 16)

/-- The text form, in groups of 8-4-4-4-12. -/
def text (u : Uuid) : List Char :=
  u.hex.take 8 ++ '-' :: (u.hex.drop 8).take 4 ++ '-' :: (u.hex.drop 12).take 4 ++
    '-' :: (u.hex.drop 16).take 4 ++ '-' :: u.hex.drop 20

end Uuid

/-- Milliseconds since the epoch. -/
abbrev Time := ℤ

/-! ### Enumerations -/

inductive Role where
  | PLATFORM_ADMIN | VENUE_ADMIN | ENTERTAINER
deriving DecidableEq, Repr

inductive KycStatus where
  | NOT_STARTED | PENDING | VERIFIED | FAILED | REVIEW | SUSPENDED
deriving DecidableEq, Repr

inductive PaymentStatus where
  | CREATED | PENDING | SUCCESS | FAILED | ABANDONED | REVERSED | REFUNDED
deriving DecidableEq, Repr

inductive LedgerAccountType where
  | ENTERTAINER_PAYABLE | VENUE_PAYABLE | PLATFORM_REVENUE | PROCESSOR_CLEARING
deriving DecidableEq, Repr

inductive LedgerDirection where
  | DEBIT | CREDIT
deriving DecidableEq, Repr

inductive SplitRuleStatus where
  | PENDING_ENTERTAINER_APPROVAL | ACTIVE | REJECTED | SUPERSEDED | WITHDRAWN
deriving DecidableEq, Repr

inductive SplitRuleOrigin where
  | VENUE_PROPOSAL | ADMIN_OVERRIDE
deriving DecidableEq, Repr

inductive PayoutStatus where
  | QUEUED | PROCESSING | SUCCESS | FAILED | RETRYING | CANCELLED
deriving DecidableEq, Repr

def KycStatus.name : KycStatus → String
  | .NOT_STARTED => "NOT_STARTED" | .PENDING => "PENDING" | .VERIFIED => "VERIFIED"
  | .FAILED => "FAILED" | .REVIEW => "REVIEW" | .SUSPENDED => "SUSPENDED"

def LedgerAccountType.name : LedgerAccountType → String
  | .ENTERTAINER_PAYABLE => "ENTERTAINER_PAYABLE" | .VENUE_PAYABLE => "VENUE_PAYABLE"
  | .PLATFORM_REVENUE => "PLATFORM_REVENUE" | .PROCESSOR_CLEARING => "PROCESSOR_CLEARING"

def PayoutStatus.name : PayoutStatus → String
  | .QUEUED => "QUEUED" | .PROCESSING => "PROCESSING" | .SUCCESS => "SUCCESS"
  | .FAILED => "FAILED" | .RETRYING => "RETRYING" | .CANCELLED => "CANCELLED"

/-! ### Rows -/

structure PaymentTransaction where
  id : Uuid
  externalReference : String
  provider : String
  venueId : Uuid
  entertainerId : Option Uuid
  guestSessionId : Uuid
  grossAmountKobo : ℤ
  guestDisplayName : Option String
  displayNameEnabled : Bool
  splitRuleId : Option Uuid
  status : PaymentStatus
  createdAt : Time
  updatedAt : Time
deriving DecidableEq

structure SplitRule where
  id : Uuid
  venueId : Uuid
  entertainerBps : ℤ
  venueBps : ℤ
  platformBps : ℤ
  effectiveFrom : Option Time
  effectiveTo : Option Time
  status : SplitRuleStatus
  origin : SplitRuleOrigin
  entertainerId : Option Uuid
  proposedByUserId : Option Uuid
  proposedAt : Time
  respondedAt : Option Time
  responseTokenHash : Option String
deriving DecidableEq

structure LedgerAccount where
  id : Uuid
  type : LedgerAccountType
  ownerId : Option Uuid
deriving DecidableEq

structure LedgerEntry where
  transactionId : Uuid
  accountId : Uuid
  direction : LedgerDirection
  amountKobo : ℤ
  createdAt : Time
deriving DecidableEq

/-- Which code path wrote a posting. -/
inductive Origin where
  | settlement | payout | reversal
deriving DecidableEq, Repr

/-- The entries one call to `post` writes. -/
structure Posting where
  origin : Origin
  transactionId : Uuid
  entries : List LedgerEntry
deriving DecidableEq

structure Payout where
  id : Uuid
  ledgerAccountId : Uuid
  transactionId : Uuid
  transferReference : Option String
  recipientCode : Option String
  amountKobo : ℤ
  status : PayoutStatus
  attempts : ℕ
  attemptedAt : Option Time
  completedAt : Option Time
  failureReason : Option String
  updatedAt : Time
deriving DecidableEq

structure Entertainer where
  id : Uuid
  stageName : String
  legalName : String
  phone : String
  bankName : Option String
  accountNumber : Option String
  kycStatus : KycStatus
  isActive : Bool
  bankCode : Option String
  resolvedAccountName : Option String
  accountResolvedAt : Option Time
  accountConfirmedAt : Option Time
  kycSubmittedAt : Option Time
  kycVerifiedAt : Option Time
  kycFailureReason : Option String
  identityCheckType : Option String
  identityCheckedAt : Option Time
deriving DecidableEq

structure Venue where
  id : Uuid
  name : String
  slug : String
  isActive : Bool
  bankName : Option String
  bankCode : Option String
  accountNumber : Option String
  resolvedAccountName : Option String
  accountResolvedAt : Option Time
  accountConfirmedAt : Option Time
deriving DecidableEq

structure VenueEntertainer where
  id : Uuid
  venueId : Uuid
  entertainerId : Uuid
deriving DecidableEq

structure QrCode where
  id : Uuid
  publicToken : String
  venueId : Uuid
  entertainerId : Option Uuid
  location : String
  isActive : Bool
  deactivatedAt : Option Time
deriving DecidableEq

structure GuestSession where
  id : Uuid
  qrCodeId : Uuid
  expiresAt : Time
deriving DecidableEq

structure EntertainerLoginToken where
  id : Uuid
  entertainerId : Uuid
  tokenHash : String
  expiresAt : Time
  consumedAt : Option Time
deriving DecidableEq

/-- A JSON value. A number and an array are known by how they are written. -/
inductive Json where
  | null
  | bool (b : Bool)
  | num (text : String)
  | str (s : String)
  | arr (text : String)
  | obj (fields : List (String × Json))

inductive ProcessingStatus where
  | PENDING | PROCESSING | COMPLETED | FAILED
deriving DecidableEq

structure WebhookEvent where
  id : Uuid
  provider : String
  eventType : String
  externalEventId : String
  signature : String
  payload : Json
  receivedAt : Time
  processedAt : Option Time
  processingStatus : ProcessingStatus

/-- The job of a webhook event, in Redis: waiting, delayed or active, or in the failed set. Its
id is `webhook:` and the event's. -/
structure WebhookJob where
  webhookEventId : Uuid
  attemptsMade : ℕ
  failed : Bool
deriving DecidableEq

/-! ### Unique indexes -/

/-- A value in a unique index. -/
inductive Key where
  | id (u : Uuid)
  | text (s : String)
  | pair (u v : Uuid)
  | account (type : LedgerAccountType) (ownerId : Option Uuid)
deriving DecidableEq

instance : Indexed PaymentTransaction Key := ⟨fun r => [.id r.id, .text r.externalReference], by simp⟩
instance : Indexed SplitRule Key :=
  ⟨fun r => .id r.id :: (r.responseTokenHash.map Key.text).toList, by simp⟩
/-- System accounts (no owner) are unique by a partial index on the type alone. -/
instance : Indexed LedgerAccount Key := ⟨fun r => [.id r.id, .account r.type r.ownerId], by simp⟩
instance : Indexed Payout Key :=
  ⟨fun r => [.id r.id, .pair r.ledgerAccountId r.transactionId] ++
    (r.transferReference.map Key.text).toList, by simp⟩
instance : Indexed Entertainer Key := ⟨fun r => [.id r.id, .text r.phone], by simp⟩
instance : Indexed Venue Key := ⟨fun r => [.id r.id, .text r.slug], by simp⟩
instance : Indexed VenueEntertainer Key :=
  ⟨fun r => [.id r.id, .pair r.venueId r.entertainerId], by simp⟩
instance : Indexed QrCode Key := ⟨fun r => [.id r.id, .text r.publicToken], by simp⟩
instance : Indexed GuestSession Key := ⟨fun r => [.id r.id], by simp⟩
instance : Indexed EntertainerLoginToken Key := ⟨fun r => [.id r.id, .text r.tokenHash], by simp⟩
instance : Indexed WebhookEvent Key := ⟨fun r => [.id r.id, .text r.externalEventId], by simp⟩
instance : Indexed WebhookJob Key := ⟨fun r => [.id r.webhookEventId], by simp⟩

section Names

variable {id : Uuid}

lemma names_payout : Table.Names (fun p : Payout => p.id == id) (.id id) := fun p hp => by
  simp only [beq_iff_eq] at hp
  simp [Indexed.keys, hp]

lemma names_entertainer : Table.Names (fun e : Entertainer => e.id == id) (.id id) := fun e he => by
  simp only [beq_iff_eq] at he
  simp [Indexed.keys, he]

lemma names_venue : Table.Names (fun v : Venue => v.id == id) (.id id) := fun v hv => by
  simp only [beq_iff_eq] at hv
  simp [Indexed.keys, hv]

end Names

structure Db where
  payments : Table PaymentTransaction := .empty
  splitRules : Table SplitRule := .empty
  ledgerAccounts : Table LedgerAccount := .empty
  postings : List Posting := []
  payouts : Table Payout := .empty
  entertainers : Table Entertainer := .empty
  venues : Table Venue := .empty
  venueEntertainers : Table VenueEntertainer := .empty
  qrCodes : Table QrCode := .empty
  guestSessions : Table GuestSession := .empty
  webhookEvents : Table WebhookEvent := .empty
  webhookJobs : Table WebhookJob := .empty
  loginTokens : Table EntertainerLoginToken := .empty

/-- The ledger: every entry ever written. -/
def Db.ledgerEntries (db : Db) : List LedgerEntry := db.postings.flatMap (·.entries)

end Splitcore
