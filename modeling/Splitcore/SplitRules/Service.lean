import Splitcore.Isolation.Sessions
import Splitcore.Tx

/-!
Split rules: a venue proposes, the entertainer answers by a token, a platform admin overrides.

The calls are over the rules and their audit trail. Of the rest of the database they read the
platform fee, the entertainers, and who performs where.
-/

namespace Splitcore.SplitRules

open Relational Isolation

/-! ### What the calls are over -/

structure SplitRuleAuditEvent where
  id : Uuid
  splitRuleId : Uuid
  event : String
  actorType : String
  actorId : Option Uuid
  detail : Json
  createdAt : Time

/-- The fee of the settings row, if there is one, and who could be proposed to. -/
structure Parties where
  platformFeeBps : Option ℤ
  entertainers : Table Entertainer
  venueEntertainers : Table VenueEntertainer

/-- What is drawn from outside the database; `randomBytes` in hexadecimal digits. -/
structure Draw where
  now : Time
  uuid : Uuid
  randomBytes : String

/-- The statements that read. -/
inductive Site where
  | getPlatformFeeBps
  | proposeEntertainer (entertainerId : Uuid)
  | proposeLink (venueId entertainerId : Uuid)
  | proposeToken
  | openProposals (venueId : Uuid)
  | findByConsentToken (splitRuleId : Uuid)
  | begin
  | outgoing (venueId : Uuid)
  | updated (splitRuleId : Uuid)
deriving DecidableEq

@[reducible] def Rules : Schema where
  Row := SplitRule
  Key := Key
  Id := Uuid
  id := SplitRule.id
  idKey := Key.id
  Note := SplitRuleAuditEvent
  Rest := Parties
  Input := Draw
  Name := Site
  Err := Err
  idKey_mem r := by simp [Indexed.keys]

structure CreateSplitRuleDto where
  venueId : Uuid
  entertainerId : Uuid
  entertainerBps : ℤ
  venueBps : ℤ

structure OverrideSplitRuleDto where
  venueId : Uuid
  entertainerBps : ℤ
  venueBps : ℤ
  platformBps : ℤ
  reason : String

inductive Decision where
  | ACCEPT | REJECT
deriving DecidableEq

structure ProposedSplitRule where
  rule : SplitRule
  consentToken : String

/-! ### The service -/

def OPEN_PROPOSAL : SplitRuleStatus := .PENDING_ENTERTAINER_APPROVAL

def DEFAULT_PLATFORM_FEE_BPS : ℤ := 500

def writeAudit (splitRuleId : Uuid) (event actorType : String) (actorId : Option Uuid)
    (detail : Json) : Call Rules Unit :=
  .note (fun w => ⟨w.uuid, splitRuleId, event, actorType, actorId, detail, w.now⟩) (.ret ())

def now : Call Rules Time := .query .begin fun w _ => w.now

def bps (n : ℤ) : Json := .num (toString n)

def idOrNull (id : Option Uuid) : Json := (id.map fun u => Json.str (String.ofList u.text)).getD .null

/-- A missing settings row is created with the default, which is one of the changes others make. -/
def getPlatformFeeBps : Call Rules ℤ :=
  .query .getPlatformFeeBps fun _ s => s.rest.platformFeeBps.getD DEFAULT_PLATFORM_FEE_BPS

section

variable (hashToken : String → String)

def proposed (dto : CreateSplitRuleDto) (platformBps : ℤ) (proposedByUserId : Uuid)
    (consentToken : String) (w : Draw) : SplitRule :=
  { id := w.uuid, venueId := dto.venueId, entertainerBps := dto.entertainerBps
    venueBps := dto.venueBps, platformBps, effectiveFrom := none, effectiveTo := none
    status := OPEN_PROPOSAL, origin := .VENUE_PROPOSAL, entertainerId := some dto.entertainerId
    proposedByUserId := some proposedByUserId, proposedAt := w.now, respondedAt := none
    responseTokenHash := some (hashToken consentToken) }

def isOpen (venueId : Uuid) (r : SplitRule) : Bool := r.venueId == venueId && r.status == OPEN_PROPOSAL

def withdraw (r : SplitRule) : SplitRule := { r with status := .WITHDRAWN, responseTokenHash := none }

def propose (dto : CreateSplitRuleDto) (proposedByUserId : Uuid) : Call Rules ProposedSplitRule := do
  let platformBps ← getPlatformFeeBps
  let splittableBps := 10000 - platformBps
  let proposedSum := dto.entertainerBps + dto.venueBps
  if proposedSum ≠ splittableBps then
    .raise (.badRequest ("entertainerBps + venueBps must equal " ++ toString splittableBps ++
      " (10000 minus the " ++ toString platformBps ++ " bps platform fee), but got " ++
      toString proposedSum ++ "."))
  else do
    let entertainer ← Call.query (.proposeEntertainer dto.entertainerId) fun _ s =>
      s.rest.entertainers.find (·.id == dto.entertainerId)
    if entertainer.isNone then
      .raise (.notFound ("Entertainer " ++ String.ofList dto.entertainerId.text ++ " not found"))
    else do
      let link ← Call.query (.proposeLink dto.venueId dto.entertainerId) fun _ s =>
        s.rest.venueEntertainers.find fun l =>
          l.venueId == dto.venueId && l.entertainerId == dto.entertainerId
      if link.isNone then
        .raise (.badRequest
          "That entertainer is not linked to this venue, so they cannot agree terms for it.")
      else do
        let consentToken ← Call.query .proposeToken fun w _ => w.randomBytes
        let withdrawn ← Call.updateMany (.openProposals dto.venueId) (isOpen dto.venueId) withdraw
        let created ← Call.insert (proposed hashToken dto platformBps proposedByUserId consentToken)
        writeAudit created.id "PROPOSED" "VENUE_ADMIN" (some proposedByUserId) (.obj [
          ("entertainerBps", bps dto.entertainerBps), ("venueBps", bps dto.venueBps),
          ("platformBps", bps platformBps), ("entertainerId", idOrNull (some dto.entertainerId)),
          ("withdrewOpenProposals", .num (toString withdrawn))])
        pure ⟨created, consentToken⟩

def isOutgoing (venueId : Uuid) (exceptRuleId : Option Uuid) (r : SplitRule) : Bool :=
  r.venueId == venueId && r.status == .ACTIVE && r.effectiveTo.isNone && some r.id != exceptRuleId

def supersede (at_ : Time) (r : SplitRule) : SplitRule :=
  { r with status := .SUPERSEDED, effectiveTo := some at_ }

/-- Closes the rules found, one after the other. -/
def closeEach (at_ : Time) (exceptRuleId : Option Uuid) : List SplitRule → Call Rules Unit
  | [] => pure ()
  | rule :: rules => do
    let closed ← .update rule.id (fun _ => true) (supersede at_) .ret
    if closed.isNone then .raise .recordNotFound
    else do
      writeAudit rule.id "SUPERSEDED" "SYSTEM" none (.obj [("supersededBy", idOrNull exceptRuleId)])
      closeEach at_ exceptRuleId rules

def closeOutActive (venueId : Uuid) (at_ : Time) (exceptRuleId : Option Uuid) : Call Rules Unit := do
  let outgoing ← Call.query (.outgoing venueId) fun _ s =>
    s.table.rows.filter (isOutgoing venueId exceptRuleId)
  closeEach at_ exceptRuleId outgoing

def overriding (dto : OverrideSplitRuleDto) (adminUserId : Uuid) (now : Time) (w : Draw) : SplitRule :=
  { id := w.uuid, venueId := dto.venueId, entertainerBps := dto.entertainerBps
    venueBps := dto.venueBps, platformBps := dto.platformBps, effectiveFrom := some now
    effectiveTo := none, status := .ACTIVE, origin := .ADMIN_OVERRIDE, entertainerId := none
    proposedByUserId := some adminUserId, proposedAt := w.now, respondedAt := none
    responseTokenHash := none }

/-- `SplitRulesService.override`. -/
def forceSet (dto : OverrideSplitRuleDto) (adminUserId : Uuid) : Call Rules SplitRule := do
  let now ← now
  closeOutActive dto.venueId now none
  let created ← Call.insert (overriding dto adminUserId now)
  writeAudit created.id "ADMIN_OVERRIDE" "PLATFORM_ADMIN" (some adminUserId) (.obj [
    ("reason", .str dto.reason), ("entertainerBps", bps dto.entertainerBps),
    ("venueBps", bps dto.venueBps), ("platformBps", bps dto.platformBps)])
  pure created

def invalidLink : Err := .notFound "This approval link is not valid."

/-- Digests of one length are compared as their hexadecimal digits are. -/
def findByConsentToken (splitRuleId : Uuid) (token : String) : Call Rules SplitRule := do
  let found ← Call.query (.findByConsentToken splitRuleId) fun _ s => s.row splitRuleId
  match found with
  | none => .raise invalidLink
  | some rule =>
    if rule.responseTokenHash ≠ some (hashToken token) then .raise invalidLink
    else if rule.status ≠ OPEN_PROPOSAL then .raise invalidLink
    else pure rule

def answer (decision : Decision) (now : Time) (r : SplitRule) : SplitRule :=
  match decision with
  | .ACCEPT => { r with
      status := .ACTIVE, effectiveFrom := some now, respondedAt := some now, responseTokenHash := none }
  | .REJECT => { r with status := .REJECTED, respondedAt := some now, responseTokenHash := none }

def respond (splitRuleId : Uuid) (token : String) (decision : Decision) : Call Rules SplitRule := do
  let rule ← findByConsentToken hashToken splitRuleId token
  let now ← now
  let claimed ← .update rule.id (·.status == OPEN_PROPOSAL) (answer decision now) .ret
  if claimed.isNone then .raise (.conflict "This proposal has already been answered.")
  else do
    if decision = .ACCEPT then closeOutActive rule.venueId now (some rule.id)
    writeAudit rule.id (if decision = .ACCEPT then "ACCEPTED" else "REJECTED") "ENTERTAINER"
      rule.entertainerId (.obj [("via", .str "CONSENT_TOKEN_LINK")])
    let updated ← Call.query (.updated rule.id) fun _ s => s.row rule.id
    match updated with
    | none => .raise .recordNotFound
    | some updated => pure updated

/-- A call to the service. -/
inductive Operation where
  | propose (dto : CreateSplitRuleDto) (proposedByUserId : Uuid)
  | override (dto : OverrideSplitRuleDto) (adminUserId : Uuid)
  | respond (splitRuleId : Uuid) (token : String) (decision : Decision)

def Operation.call : Operation → Call Rules Unit
  | .propose dto user => do let _ ← SplitRules.propose hashToken dto user
  | .override dto user => do let _ ← forceSet dto user
  | .respond id token decision => do let _ ← SplitRules.respond hashToken id token decision

end

end Splitcore.SplitRules
