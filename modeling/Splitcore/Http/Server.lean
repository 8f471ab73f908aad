import Splitcore.Dashboard.Service
import Splitcore.EntertainerAuth.Service
import Splitcore.Money.Checkout
import Splitcore.Onboarding.VenueAccount
import Splitcore.QrCodes.Service
import Splitcore.SplitRules.Service
import Splitcore.Webhooks.Ingest

/-!
What the server keeps, and what its responses carry.

The database is that of the services, with the admins' accounts, the platform's settings and the audit
trail of the split rules beside it. As in the database, a venue has no logo and no address here: they
are only shown.
-/

namespace Splitcore.Http

open Relational Dashboard Onboarding SplitRules

/-! ### The state -/

structure User where
  id : Uuid
  email : String
  passwordHash : String
  role : Role
  isActive : Bool
  venueId : Option Uuid
deriving DecidableEq

instance : Indexed User Key := ⟨fun r => [.id r.id, .text r.email], by simp⟩

structure Server where
  db : Db
  users : Table User := .empty
  platformFeeBps : Option ℤ := none
  auditEvents : List SplitRuleAuditEvent := []

/-- What the calls of `SplitRulesService` are over. -/
def Server.rules (s : Server) : Isolation.Store Rules :=
  ⟨s.db.splitRules, s.auditEvents, ⟨s.platformFeeBps, s.db.entertainers, s.db.venueEntertainers⟩⟩

def Server.putRules (s : Server) (rules : Isolation.Store Rules) : Server :=
  { s with db := { s.db with splitRules := rules.table }, auditEvents := rules.notes }

/-- What the deployment is configured with, and the libraries that check passwords and tokens. -/
structure Deployment where
  /-- SHA-256, in hexadecimal. -/
  hashToken : String → String
  /-- `bcrypt.compare` of a password and a hash. -/
  compare : String → String → Bool
  /-- What a token says whose signature is right and that has not expired. -/
  verifyJwt : Time → String → Option JwtPayload
  jwtExpiresIn : String
  toUpperCase : String → String
  /-- How the database collates names. -/
  nameLe : String → String → Bool
  urls : EntertainerAuth.Config
  payments : Money.PaymentsConfig
  webhookProvider : Webhooks.WebhookProvider
  queueEnabled : Bool

/-! ### Responses -/

/-- A rule as clients see it: without the hash of its token. -/
structure SplitRuleResponse where
  id : Uuid
  venueId : Uuid
  entertainerBps : ℤ
  venueBps : ℤ
  platformBps : ℤ
  effectiveFrom : Option Time
  effectiveTo : Option Time
  status : SplitRuleStatus
  origin : SplitRuleOrigin
  entertainerId : Option Uuid
  proposedByUserId : Option Uuid
  proposedAt : Time
  respondedAt : Option Time
deriving DecidableEq

def toResponse (rule : SplitRule) : SplitRuleResponse where
  id := rule.id
  venueId := rule.venueId
  entertainerBps := rule.entertainerBps
  venueBps := rule.venueBps
  platformBps := rule.platformBps
  effectiveFrom := rule.effectiveFrom
  effectiveTo := rule.effectiveTo
  status := rule.status
  origin := rule.origin
  entertainerId := rule.entertainerId
  proposedByUserId := rule.proposedByUserId
  proposedAt := rule.proposedAt
  respondedAt := rule.respondedAt

/-- The shares are also shown as percentages. -/
structure SplitRuleTerms where
  venueName : String
  entertainerName : String
  entertainerBps : ℤ
  venueBps : ℤ
  platformBps : ℤ
  proposedAt : Time
  exampleTipKobo : ℤ
  entertainerCutKobo : ℤ
deriving DecidableEq

structure EntertainerResponse where
  entertainer : Entertainer
  venueIds : List Uuid
deriving DecidableEq

structure QrCodeResponse where
  qrCode : QrCode
  venue : Option Venue
  entertainer : Option Entertainer
deriving DecidableEq

structure QrResolution where
  venueId : Uuid
  venueName : String
  entertainer : Option (Uuid × String)
  location : String
  sessionId : Uuid
  expiresAt : Time
deriving DecidableEq

structure TransactionRow where
  id : Uuid
  time : Time
  amountKobo : ℤ
  entertainerName : Option String
  guest : String
  status : PaymentStatus
  reference : String
deriving DecidableEq

structure PayoutRow where
  id : Uuid
  entertainerName : Option String
  amountKobo : ℤ
  status : PayoutStatus
  reference : Option String
  failureReason : Option String
deriving DecidableEq

structure Page (α : Type) where
  total : ℕ
  limit : ℕ
  offset : ℕ
  items : List α

structure PlatformSettingsResponse where
  platformFeeBps : ℤ
  splittableBps : ℤ
deriving DecidableEq

/-- The bodies of the responses that are no errors. -/
inductive Response where
  -- AuthController, EntertainerAuthController
  | accessToken (token : String)
  | loginLink (link : EntertainerAuth.IssuedLoginLink)
  | session (session : EntertainerAuth.EntertainerSession)
  -- SplitRulesController
  | proposal (rule : SplitRuleResponse) (consentToken consentUrl : String)
  | splitRule (rule : SplitRuleResponse)
  | splitRules (rules : List SplitRuleResponse)
  | terms (terms : SplitRuleTerms)
  | auditTrail (events : List SplitRuleAuditEvent)
  -- VenuesController, VenuePayoutAccountController
  | venue (venue : Venue)
  | venues (venues : List Venue)
  | payoutAccount (view : VenueAccount.VenuePayoutAccountView)
  -- EntertainersController, KycController
  | entertainer (entertainer : EntertainerResponse)
  | entertainers (entertainers : List EntertainerResponse)
  | kycStatus (view : KycStatusView)
  | message (message : String)
  -- QrCodesController, GuestController
  | qrCode (qrCode : QrCode)
  | qrCodeDetails (qrCode : QrCodeResponse)
  | qrCodes (qrCodes : List QrCodeResponse)
  | resolution (resolution : QrResolution)
  -- VenueDashboardController, EntertainerDashboardController
  | venueOverview (overview : VenueOverview)
  | entertainerEarnings (rows : List EntertainerEarningsRow)
  | entertainerOverview (overview : EntertainerOverview)
  | transactions (page : Page TransactionRow)
  | payouts (page : Page PayoutRow)
  -- PaymentsController, WebhooksController
  | paymentInit (payment : Money.PaymentInitResponseDto)
  | paymentStatus (payment : Money.PaymentStatusResponseDto)
  | callbackPage (payment : Option Money.PaymentStatusResponseDto)
  | received
  -- PlatformSettingsController, BanksController, HealthController
  | settings (settings : PlatformSettingsResponse)
  | banks (banks : List Bank)
  | health

namespace Response

/-! What a client can use a response for. -/

/-- A session token. -/
def sessionToken : Response → Option String
  | .accessToken token => some token
  | .session opened => some opened.accessToken
  | _ => none

/-- The token of a login link; the link's address ends in it. -/
def loginToken : Response → Option String
  | .loginLink issued => some issued.token
  | _ => none

/-- The token a proposal is answered with; the address to answer at ends in it. -/
def consentToken : Response → Option String
  | .proposal _ token _ => some token
  | _ => none

end Response

end Splitcore.Http
