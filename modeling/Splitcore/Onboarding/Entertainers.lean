import Splitcore.Onboarding.Kyc

/-!
The entertainers themselves: created, edited, deactivated and linked to venues by admins. Editing
writes the same bank columns onboarding does.
-/

namespace Splitcore.Onboarding

open Interleaving

structure CreateEntertainer where
  stageName : String
  legalName : String
  phone : String
  bankName : Option String
  accountNumber : Option String
deriving DecidableEq

/-- Absent fields are left alone; a column that may be null can also be set to null. -/
structure UpdateEntertainer where
  stageName : Option String
  legalName : Option String
  phone : Option String
  bankName : Option (Option String)
  accountNumber : Option (Option String)
  isActive : Option Bool
deriving DecidableEq

def created (dto : CreateEntertainer) (id : Uuid) : Entertainer where
  id := id
  stageName := dto.stageName
  legalName := dto.legalName
  phone := dto.phone
  bankName := dto.bankName
  accountNumber := dto.accountNumber
  kycStatus := .NOT_STARTED
  isActive := true
  bankCode := none
  resolvedAccountName := none
  accountResolvedAt := none
  accountConfirmedAt := none
  kycSubmittedAt := none
  kycVerifiedAt := none
  kycFailureReason := none
  identityCheckType := none
  identityCheckedAt := none

def edited (dto : UpdateEntertainer) (e : Entertainer) : Entertainer :=
  { e with
    stageName := dto.stageName.getD e.stageName, legalName := dto.legalName.getD e.legalName
    phone := dto.phone.getD e.phone, bankName := dto.bankName.getD e.bankName
    accountNumber := dto.accountNumber.getD e.accountNumber
    isActive := dto.isActive.getD e.isActive }

/-- The ids of the venues an entertainer is linked to. -/
def venueIds (entertainerId : Uuid) : Tx (List Uuid) := Tx.read fun db =>
  (db.venueEntertainers.rows.filter (·.entertainerId == entertainerId)).map (·.venueId)

def create (dto : CreateEntertainer) : Prog App (Entertainer × List Uuid) := do
  let result ← (statement .entertainerCreate do
    let id ← Tx.freshId
    Model.entertainer.create (created dto id)
    pure (created dto id)).attempt
  match result with
  | .ok entertainer => pure (entertainer, [])
  | .error .uniqueViolation =>
    .raise (.conflict "An entertainer with this phone number already exists")
  | .error e => .raise e

def entertainerNotFound (id : Uuid) : Err :=
  .notFound ("Entertainer with ID " ++ String.ofList id.text ++ " not found")

def update (id : Uuid) (dto : UpdateEntertainer) : Prog App (Entertainer × List Uuid) := do
  let result ← (statement (.entertainerUpdate id) do
    let entertainer ← updateEntertainer id (edited dto)
    let venues ← venueIds id
    pure (entertainer, venues)).attempt
  match result with
  | .ok updated => pure updated
  | .error .recordNotFound => .raise (entertainerNotFound id)
  | .error .uniqueViolation =>
    .raise (.conflict "An entertainer with this phone number already exists")
  | .error e => .raise e

/-- The entertainer and all their QR codes, in one transaction. -/
def deactivate (id : Uuid) : Prog App (Entertainer × List Uuid) := do
  let result ← (statement (.entertainerDeactivate id) do
    let entertainer ← updateEntertainer id fun e => { e with isActive := false }
    let venues ← venueIds id
    let _ ← Model.qrCode.updateMany (·.entertainerId == some id)
      fun qr => { qr with isActive := false }
    pure (entertainer, venues)).attempt
  match result with
  | .ok updated => pure updated
  | .error .recordNotFound => .raise (entertainerNotFound id)
  | .error e => .raise e

/-- A link refers to a venue and an entertainer that are there. -/
def linkToVenue (entertainerId venueId : Uuid) : Prog App VenueEntertainer := do
  let result ← (statement (.linkToVenue entertainerId venueId) do
    let id ← Tx.freshId
    Model.venueEntertainer.create ⟨id, venueId, entertainerId⟩
    let known ← Tx.read fun db =>
      (db.venues.find (·.id == venueId)).isSome && (db.entertainers.find (·.id == entertainerId)).isSome
    if known then pure (⟨id, venueId, entertainerId⟩ : VenueEntertainer)
    else Tx.throw .foreignKeyViolation).attempt
  match result with
  | .ok link => pure link
  | .error .uniqueViolation => .raise (.conflict "Entertainer is already linked to this venue")
  | .error e => .raise e

/-- The condition on a link between the two. -/
def links (venueId entertainerId : Uuid) (link : VenueEntertainer) : Bool :=
  link.venueId == venueId && link.entertainerId == entertainerId

def unlinkFromVenue (entertainerId venueId : Uuid) : Prog App Unit := do
  match ← query (.unlinkFind entertainerId venueId) fun db =>
    db.venueEntertainers.find (links venueId entertainerId) with
  | none => .raise (.notFound "Entertainer is not linked to this venue")
  | some link => statement (.unlinkDelete link.id) (Model.venueEntertainer.delete (·.id == link.id))

end Splitcore.Onboarding
