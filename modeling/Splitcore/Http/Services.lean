import Splitcore.Http.Server

/-!
The services that only the controllers use: sign-in of admins, venues, the platform's settings, what a
guest's scan does, and everything that is only read.

Rows are kept in the order they were created in; the newest are the last.
-/

namespace Splitcore

open Relational

/-- A transaction whose errors are replaced by others. -/
def Tx.mapError {α : Type} (f : Err → Err) (m : Tx α) : Tx α := fun w σ => (m w σ).mapError f

@[simp] lemma Tx.mapError_ok {α : Type} {f : Err → Err} {m : Tx α} {w : Input} {σ σ' : Db × ℕ} {a : α} :
    m.mapError f w σ = .ok (a, σ') ↔ m w σ = .ok (a, σ') := by
  unfold Tx.mapError
  rcases m w σ with e | r <;> simp [Except.mapError]

namespace Http

open Dashboard Onboarding SplitRules

/-! ### AuthService -/

structure LoginDto where
  email : String
  password : String

def invalidCredentials : Err := .unauthorized "Invalid email or password"

/-- One error for an unknown address, an inactive account and a wrong password. -/
def validateUser (config : Deployment) (users : Table User) (dto : LoginDto) : Except Err User :=
  match users.find (·.email == dto.email) with
  | none => .error invalidCredentials
  | some user =>
    if !user.isActive then .error invalidCredentials
    else if !config.compare dto.password user.passwordHash then .error invalidCredentials
    else .ok user

def userPayload (user : User) : JwtPayload := ⟨user.id, user.email, user.role, none⟩

/-! ### VenuesService -/

structure CreateVenueDto where
  name : String
  slug : String

structure UpdateVenueDto where
  name : Option String
  isActive : Option Bool

namespace VenuesService

def created (dto : CreateVenueDto) (id : Uuid) : Venue where
  id := id
  name := dto.name
  slug := dto.slug
  isActive := true
  bankName := none
  bankCode := none
  accountNumber := none
  resolvedAccountName := none
  accountResolvedAt := none
  accountConfirmedAt := none

def slugTaken : Err → Err
  | .uniqueViolation => .conflict "A venue with this slug already exists"
  | e => e

def create (dto : CreateVenueDto) : Tx Venue := Tx.mapError slugTaken do
  let id ← Tx.freshId
  Model.venue.create (created dto id)
  pure (created dto id)

def missing (id : Uuid) : Err → Err
  | .recordNotFound => QrCodes.venueNotFound id
  | e => e

def edited (dto : UpdateVenueDto) (v : Venue) : Venue :=
  { v with name := dto.name.getD v.name, isActive := dto.isActive.getD v.isActive }

def update (id : Uuid) (dto : UpdateVenueDto) : Tx Venue :=
  Tx.mapError (missing id) (VenueAccount.updateVenue id (edited dto))

def deactivate (id : Uuid) : Tx Venue :=
  Tx.mapError (missing id) (VenueAccount.updateVenue id fun v => { v with isActive := false })

end VenuesService

/-! ### GuestService -/

/-- A code that can be tipped by opens a session of a day. -/
def resolveQrCode (publicToken : String) : Tx QrResolution := do
  match ← Model.qrCode.findFirst (·.publicToken == publicToken) with
  | none => Tx.throw (.notFound "QR code not found")
  | some qrCode => do
    let venue ← Model.venue.findFirst (·.id == qrCode.venueId)
    let entertainer ← Tx.read fun db => qrCode.entertainerId.bind fun id => db.entertainers.find (·.id == id)
    if !qrCode.isActive then Tx.throw (.gone "QR code has been deactivated")
    else match venue with
      | none => Tx.throw .typeError
      | some venue =>
        if !venue.isActive then Tx.throw (.gone "Venue is no longer active")
        else if entertainer.any (!·.isActive) then Tx.throw (.gone "Entertainer is no longer active")
        else do
          let now ← Tx.now
          let id ← Tx.freshId
          let guestSession : GuestSession := ⟨id, qrCode.id, now + 24 * 60 * 60000⟩
          Model.guestSession.create guestSession
          pure ⟨venue.id, venue.name, entertainer.map fun e => (e.id, e.stageName), qrCode.location,
            guestSession.id, guestSession.expiresAt⟩

/-! ### PlatformSettingsService -/

/-- A missing settings row is created. -/
def withSettings (s : Server) : Server :=
  { s with platformFeeBps := some (s.platformFeeBps.getD DEFAULT_PLATFORM_FEE_BPS) }

def settingsResponse (platformFeeBps : ℤ) : PlatformSettingsResponse := ⟨platformFeeBps, 10000 - platformFeeBps⟩

def getSettings (s : Server) : PlatformSettingsResponse × Server :=
  (settingsResponse (s.platformFeeBps.getD DEFAULT_PLATFORM_FEE_BPS), withSettings s)

def updateSettings (platformFeeBps : ℤ) (s : Server) : PlatformSettingsResponse × Server :=
  (settingsResponse platformFeeBps, { s with platformFeeBps := some platformFeeBps })

/-! ### Lists -/

/-- The venue of a user who is not a platform admin, looked up again. -/
def venueOf (s : Server) (userId : Uuid) : Option Uuid := (s.users.find (·.id == userId)).bind (·.venueId)

def findAllVenues (s : Server) (userId : Uuid) (role : Role) : List Venue :=
  if role = .PLATFORM_ADMIN then s.db.venues.rows.reverse
  else match venueOf s userId with
    | none => []
    | some venueId => s.db.venues.rows.reverse.filter (·.id == venueId)

def findVenue (s : Server) (id : Uuid) : Except Err Venue :=
  match s.db.venues.find (·.id == id) with
  | none => .error (QrCodes.venueNotFound id)
  | some venue => .ok venue

def withVenueIds (db : Db) (entertainer : Entertainer) : EntertainerResponse :=
  ⟨entertainer, (db.venueEntertainers.rows.filter (·.entertainerId == entertainer.id)).map (·.venueId)⟩

def findAllEntertainers (s : Server) (userId : Uuid) (role : Role) : List EntertainerResponse :=
  if role = .PLATFORM_ADMIN then s.db.entertainers.rows.reverse.map (withVenueIds s.db)
  else match venueOf s userId with
    | none => []
    | some venueId =>
      ((s.db.venueEntertainers.rows.filter (·.venueId == venueId)).filterMap fun ve =>
        s.db.entertainers.find (·.id == ve.entertainerId)).map (withVenueIds s.db)

def findEntertainer (s : Server) (id : Uuid) : Except Err EntertainerResponse :=
  match s.db.entertainers.find (·.id == id) with
  | none => .error (entertainerNotFound id)
  | some entertainer => .ok (withVenueIds s.db entertainer)

def qrCodeDetails (db : Db) (qrCode : QrCode) : QrCodeResponse where
  qrCode := qrCode
  venue := db.venues.find (·.id == qrCode.venueId)
  entertainer := qrCode.entertainerId.bind fun id => db.entertainers.find (·.id == id)

def findAllQrCodes (s : Server) (userId : Uuid) (role : Role) : List QrCodeResponse :=
  if role = .PLATFORM_ADMIN then s.db.qrCodes.rows.reverse.map (qrCodeDetails s.db)
  else match venueOf s userId with
    | none => []
    | some venueId => (s.db.qrCodes.rows.reverse.filter (·.venueId == venueId)).map (qrCodeDetails s.db)

def findQrCode (s : Server) (id : Uuid) : Except Err QrCodeResponse :=
  match s.db.qrCodes.find (·.id == id) with
  | none => .error (QrCodes.qrCodeNotFound id)
  | some qrCode => .ok (qrCodeDetails s.db qrCode)

def findAllByVenue (s : Server) (venueId : Uuid) : List SplitRuleResponse :=
  ((s.db.splitRules.rows.filter (·.venueId == venueId)).insertionSort fun a b => b.proposedAt ≤ a.proposedAt).map
    toResponse

def findAuditTrail (s : Server) (splitRuleId : Uuid) : List SplitRuleAuditEvent :=
  (s.auditEvents.filter (·.splitRuleId == splitRuleId)).insertionSort fun a b => a.createdAt ≤ b.createdAt

def exampleTipKobo : ℤ := 500000

/-- The terms to show an entertainer before they decide. -/
def termsOf (s : Server) (rule : SplitRule) : SplitRuleTerms where
  venueName := ((s.db.venues.find (·.id == rule.venueId)).map (·.name)).getD "Unknown venue"
  entertainerName := ((rule.entertainerId.bind fun id => s.db.entertainers.find (·.id == id)).map
    (·.stageName)).getD "Unknown entertainer"
  entertainerBps := rule.entertainerBps
  venueBps := rule.venueBps
  platformBps := rule.platformBps
  proposedAt := rule.proposedAt
  exampleTipKobo := exampleTipKobo
  entertainerCutKobo := exampleTipKobo * rule.entertainerBps / 10000

def buildConsentUrl (config : Deployment) (splitRuleId : Uuid) (token : String) : String :=
  EntertainerAuth.withoutTrailingSlashes
      ((config.urls.FRONTEND_URL <|> config.urls.APP_URL).getD "http://localhost:3000") ++
    "/split-rules/" ++ String.ofList splitRuleId.text ++ "/respond/" ++ token

/-! ### Dashboard lists -/

structure PaginationQueryDto where
  limit : Option ℕ
  offset : Option ℕ

def DEFAULT_LIMIT : ℕ := 50

def MAX_LIMIT : ℕ := 200

def clamp (limit : ℕ) : ℕ := if limit = 0 then DEFAULT_LIMIT else min limit MAX_LIMIT

def page {α β : Type} (query : PaginationQueryDto) (rows : List α) (item : α → β) : Page β where
  total := rows.length
  limit := clamp (query.limit.getD DEFAULT_LIMIT)
  offset := query.offset.getD 0
  items := ((rows.drop (query.offset.getD 0)).take (clamp (query.limit.getD DEFAULT_LIMIT))).map item

/-- A guest who chose not to be named is `Anonymous`. -/
def transactionRow (db : Db) (t : PaymentTransaction) : TransactionRow where
  id := t.id
  time := t.createdAt
  amountKobo := t.grossAmountKobo
  entertainerName := (t.entertainerId.bind fun id => db.entertainers.find (·.id == id)).map (·.stageName)
  guest := if t.displayNameEnabled then (truthy t.guestDisplayName).getD "Anonymous" else "Anonymous"
  status := t.status
  reference := t.externalReference

def transactions (db : Db) (cond : PaymentTransaction → Bool) (query : PaginationQueryDto) : Page TransactionRow :=
  page query ((db.payments.rows.filter cond).insertionSort fun a b => b.createdAt ≤ a.createdAt) (transactionRow db)

def payoutRow (db : Db) (p : Payout) : PayoutRow where
  id := p.id
  entertainerName := ((db.payments.find (·.id == p.transactionId)).bind fun t =>
    t.entertainerId.bind fun id => db.entertainers.find (·.id == id)).map (·.stageName)
  amountKobo := p.amountKobo
  status := p.status
  reference := p.transferReference
  failureReason := p.failureReason

def payouts (db : Db) (cond : Payout → Bool) (query : PaginationQueryDto) : Page PayoutRow :=
  page query (db.payouts.rows.reverse.filter cond) (payoutRow db)

/-- `ledgerAccount: { type }`. -/
def onType (type : LedgerAccountType) (db : Db) (p : Payout) : Bool :=
  db.ledgerAccounts.rows.any fun a => a.id == p.ledgerAccountId && a.type == type

def venueTransactions (db : Db) (venueId : Uuid) : PaginationQueryDto → Page TransactionRow :=
  transactions db (·.venueId == venueId)

def entertainerTransactions (db : Db) (entertainerId : Uuid) : PaginationQueryDto → Page TransactionRow :=
  transactions db (·.entertainerId == some entertainerId)

/-- Without the venue's own share. -/
def venuePayouts (db : Db) (venueId : Uuid) : PaginationQueryDto → Page PayoutRow :=
  payouts db fun p => ofVenue venueId db p && onType .ENTERTAINER_PAYABLE db p

def venueOwnPayouts (db : Db) (venueId : Uuid) : PaginationQueryDto → Page PayoutRow :=
  payouts db (onAccount .VENUE_PAYABLE venueId db)

def entertainerPayouts (db : Db) (entertainerId : Uuid) : PaginationQueryDto → Page PayoutRow :=
  payouts db (onAccount .ENTERTAINER_PAYABLE entertainerId db)

end Http

end Splitcore
