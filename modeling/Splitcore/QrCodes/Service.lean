import Splitcore.Onboarding.Entertainers

/-!
QR codes: created for a venue, or for an entertainer at a venue, deactivated, and replaced by one
with another token.
-/

namespace Splitcore.QrCodes

open Interleaving Onboarding

structure CreateQrCodeDto where
  venueId : Uuid
  entertainerId : Option Uuid
  location : String
deriving DecidableEq

/-- 16 of the random bytes, in hexadecimal. -/
def publicTokenOf (randomBytes : String) : String := String.ofList (randomBytes.toList.take 32)

def generatePublicToken : Tx String := do
  let bytes ← Tx.randomBytes
  pure (publicTokenOf bytes)

def created (dto : CreateQrCodeDto) (publicToken : String) (id : Uuid) : QrCode where
  id := id
  publicToken := publicToken
  venueId := dto.venueId
  entertainerId := dto.entertainerId
  location := dto.location
  isActive := true
  deactivatedAt := none

def deactivated (now : Time) (qrCode : QrCode) : QrCode :=
  { qrCode with isActive := false, deactivatedAt := some now }

/-- The code that takes the place of an old one. -/
def successor (oldQrCode : QrCode) (publicToken : String) (id : Uuid) : QrCode :=
  created ⟨oldQrCode.venueId, oldQrCode.entertainerId, oldQrCode.location⟩ publicToken id

def venueNotFound (id : Uuid) : Err :=
  .notFound ("Venue with ID " ++ String.ofList id.text ++ " not found")

def qrCodeNotFound (id : Uuid) : Err :=
  .notFound ("QR code with ID " ++ String.ofList id.text ++ " not found")

/-- A named entertainer has to be there and linked to the venue. -/
def checkEntertainer (venueId : Uuid) : Option Uuid → Prog App Unit
  | none => pure ()
  | some entertainerId => do
    let entertainer ← query (.qrCodeEntertainer entertainerId) fun db =>
      db.entertainers.find (·.id == entertainerId)
    if entertainer.isNone then .raise (entertainerNotFound entertainerId)
    else
      let link ← query (.qrCodeLink venueId entertainerId) fun db =>
        db.venueEntertainers.find (links venueId entertainerId)
      if link.isNone then .raise (.badRequest "Entertainer is not linked to this venue")
      else pure ()

def create (dto : CreateQrCodeDto) : Prog App QrCode := do
  let venue ← query (.qrCodeVenue dto.venueId) fun db => db.venues.find (·.id == dto.venueId)
  if venue.isNone then .raise (venueNotFound dto.venueId)
  else
    checkEntertainer dto.venueId dto.entertainerId
    statement .qrCodeCreate do
      let publicToken ← generatePublicToken
      let id ← Tx.freshId
      Model.qrCode.create (created dto publicToken id)
      pure (created dto publicToken id)

/-- Whatever goes wrong, the code was not found. -/
def deactivate (id : Uuid) : Prog App QrCode := do
  let result ← (statement (.qrCodeDeactivate id) do
    let now ← Tx.now
    Model.qrCode.updateOne (fun _ => true) (·.id == id) (deactivated now)).attempt
  match result with
  | .ok qrCode => pure qrCode
  | .error _ => .raise (qrCodeNotFound id)

/-- One transaction: the old code is deactivated, and a new one created in its place. -/
def regenerate (id : Uuid) : Prog App QrCode :=
  statement (.qrCodeRegenerate id) do
    match ← Model.qrCode.findFirst (·.id == id) with
    | none => Tx.throw (qrCodeNotFound id)
    | some oldQrCode => do
      let now ← Tx.now
      Model.qrCode.update (·.id == id) (deactivated now)
      let publicToken ← generatePublicToken
      let newId ← Tx.freshId
      Model.qrCode.create (successor oldQrCode publicToken newId)
      pure (successor oldQrCode publicToken newId)

/-! ### Calls of the admins -/

inductive Operation where
  | createQrCode (dto : CreateQrCodeDto)
  | deactivateQrCode (id : Uuid)
  | regenerateQrCode (id : Uuid)
  | createEntertainer (dto : CreateEntertainer)
  | updateEntertainer (id : Uuid) (dto : UpdateEntertainer)
  | deactivateEntertainer (id : Uuid)
  | linkToVenue (entertainerId venueId : Uuid)
  | unlinkFromVenue (entertainerId venueId : Uuid)

def Operation.program : Operation → Prog App Unit
  | .createQrCode dto => do let _ ← create dto
  | .deactivateQrCode id => do let _ ← deactivate id
  | .regenerateQrCode id => do let _ ← regenerate id
  | .createEntertainer dto => do let _ ← Onboarding.create dto
  | .updateEntertainer id dto => do let _ ← update id dto
  | .deactivateEntertainer id => do let _ ← Onboarding.deactivate id
  | .linkToVenue entertainerId venueId => do let _ ← Onboarding.linkToVenue entertainerId venueId
  | .unlinkFromVenue entertainerId venueId => Onboarding.unlinkFromVenue entertainerId venueId

end Splitcore.QrCodes
