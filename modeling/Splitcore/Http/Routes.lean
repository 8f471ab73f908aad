import Splitcore.Http.Services

/-!
The routes of the controllers, what each is decorated with, and the guards a request passes before its
controller is called.
-/

namespace Splitcore.Http

open Relational Dashboard Onboarding SplitRules

/-! ### Requests -/

/-- A body the validation makes a DTO of, or one it refuses. The guards, which come before it, look for a
`venueId` in either. -/
inductive Body (α : Type) where
  | valid (dto : α)
  | invalid (venueId : Option Uuid)

/-- A request, as far as it depends on the route. -/
inductive Route where
  -- AuthController
  | login (body : Body LoginDto)
  -- EntertainerAuthController
  | issueLoginLink (entertainerId : Uuid)
  | redeem (token : Body String)
  -- SplitRulesController
  | propose (body : Body CreateSplitRuleDto)
  | override (body : Body OverrideSplitRuleDto)
  | getTerms (id : Uuid) (token : String)
  | respond (id : Uuid) (token : String) (decision : Body Decision)
  | findAllByVenue (venueId : Uuid)
  | findActiveByVenue (venueId : Uuid)
  | findAuditTrail (id : Uuid)
  -- VenuesController
  | createVenue (body : Body CreateVenueDto)
  | findAllVenues
  | findVenue (venueId : Uuid)
  | updateVenue (venueId : Uuid) (body : Body UpdateVenueDto)
  | deactivateVenue (venueId : Uuid)
  -- VenuePayoutAccountController
  | payoutAccountStatus (venueId : Uuid)
  | payoutAccountBankDetails (venueId : Uuid) (body : Body BankDetails)
  | payoutAccountResolve (venueId : Uuid)
  | payoutAccountConfirm (venueId : Uuid) (confirmedAccountName : Body String)
  -- VenueDashboardController
  | venueOverview (venueId : Uuid)
  | entertainerEarnings (venueId : Uuid)
  | venueTransactions (venueId : Uuid) (query : PaginationQueryDto)
  | venuePayouts (venueId : Uuid) (query : PaginationQueryDto)
  | venueOwnPayouts (venueId : Uuid) (query : PaginationQueryDto)
  -- EntertainerDashboardController
  | entertainerOverview (entertainerId : Uuid)
  | entertainerTransactions (entertainerId : Uuid) (query : PaginationQueryDto)
  | entertainerPayouts (entertainerId : Uuid) (query : PaginationQueryDto)
  -- EntertainersController
  | createEntertainer (body : Body CreateEntertainer)
  | findAllEntertainers
  | findEntertainer (entertainerId : Uuid)
  | updateEntertainer (entertainerId : Uuid) (body : Body UpdateEntertainer)
  | deactivateEntertainer (entertainerId : Uuid)
  | linkToVenue (entertainerId venueId : Uuid)
  | unlinkFromVenue (entertainerId venueId : Uuid)
  -- KycController
  | kycStatus (entertainerId : Uuid)
  | kycBankDetails (entertainerId : Uuid) (body : Body BankDetails)
  | kycResolve (entertainerId : Uuid)
  | kycConfirm (entertainerId : Uuid) (confirmedAccountName : Body String)
  | kycVerifyIdentity (entertainerId : Uuid) (document : Body (IdentityDocumentType × String))
  | kycReview (entertainerId : Uuid) (review : Body (ReviewDecision × String))
  -- QrCodesController
  | createQrCode (body : Body QrCodes.CreateQrCodeDto)
  | findAllQrCodes
  | findQrCode (qrCodeId : Uuid)
  | deactivateQrCode (qrCodeId : Uuid)
  | regenerateQrCode (qrCodeId : Uuid)
  -- GuestController
  | resolveQrCode (publicToken : String)
  -- PaymentsController
  | initializePayment (body : Body Money.InitializePaymentDto)
  | getPaymentStatus (reference : String)
  | paymentCallback (reference : Option String)
  -- WebhooksController
  | handlePaystackWebhook (delivery : Webhooks.Delivery)
  -- PlatformSettingsController
  | getSettings
  | updateSettings (platformFeeBps : Body ℤ)
  -- BanksController, HealthController
  | listBanks
  | health

/-- The bearer token is that of the `Authorization` header. -/
structure Request where
  bearer : Option String
  route : Route

/-! ### Decorators -/

namespace Route

/-- `@Public()` -/
def isPublic : Route → Bool
  | login _ | redeem _ | getTerms _ _ | respond _ _ _ | resolveQrCode _ | initializePayment _
  | getPaymentStatus _ | paymentCallback _ | handlePaystackWebhook _ | health => true
  | _ => false

/-- `@Roles(..)` -/
def requiredRoles : Route → List Role
  | login _ | redeem _ | getTerms _ _ | respond _ _ _ | resolveQrCode _ | initializePayment _
  | getPaymentStatus _ | paymentCallback _ | handlePaystackWebhook _ | health => []
  | override _ | createVenue _ | kycReview _ _ | updateSettings _ => [.PLATFORM_ADMIN]
  | kycConfirm _ _ | kycVerifyIdentity _ _ => [.ENTERTAINER]
  | entertainerOverview _ | entertainerTransactions _ _ | entertainerPayouts _ _ | kycStatus _
  | kycBankDetails _ _ | kycResolve _ | listBanks => [.PLATFORM_ADMIN, .VENUE_ADMIN, .ENTERTAINER]
  | _ => [.PLATFORM_ADMIN, .VENUE_ADMIN]

/-- `@VenueScoped()` -/
def venueScoped : Route → Bool
  | propose _ | findAllByVenue _ | findActiveByVenue _ | updateVenue _ _ | deactivateVenue _
  | payoutAccountStatus _ | payoutAccountBankDetails _ _ | payoutAccountResolve _ | payoutAccountConfirm _ _
  | venueOverview _ | entertainerEarnings _ | venueTransactions _ _ | venuePayouts _ _ | venueOwnPayouts _ _
  | linkToVenue _ _ | unlinkFromVenue _ _ | createQrCode _ => true
  | _ => false

/-- `@EntertainerScoped()` -/
def entertainerScoped : Route → Bool
  | issueLoginLink _ | entertainerOverview _ | entertainerTransactions _ _ | entertainerPayouts _ _
  | kycStatus _ | kycBankDetails _ _ | kycResolve _ | kycConfirm _ _ | kycVerifyIdentity _ _ => true
  | _ => false

/-! ### What the guards read of a request -/

/-- `request.params.venueId` -/
def paramVenueId : Route → Option Uuid
  | findAllByVenue v | findActiveByVenue v | findVenue v | updateVenue v _ | deactivateVenue v
  | payoutAccountStatus v | payoutAccountBankDetails v _ | payoutAccountResolve v | payoutAccountConfirm v _
  | venueOverview v | entertainerEarnings v | venueTransactions v _ | venuePayouts v _ | venueOwnPayouts v _
  | linkToVenue _ v | unlinkFromVenue _ v => some v
  | _ => none

end Route

/-- The `venueId` of a body: a DTO that has none is not made of a body that has one. -/
def Body.venueId {α : Type} (field : α → Option Uuid) : Body α → Option Uuid
  | .valid dto => field dto
  | .invalid venueId => venueId

namespace Route

/-- `request.body?.venueId` -/
def bodyVenueId : Route → Option Uuid
  | propose body => body.venueId fun dto => some dto.venueId
  | override body => body.venueId fun dto => some dto.venueId
  | createQrCode body => body.venueId fun dto => some dto.venueId
  | login body => body.venueId fun _ => none
  | redeem body => body.venueId fun _ => none
  | respond _ _ body => body.venueId fun _ => none
  | createVenue body => body.venueId fun _ => none
  | updateVenue _ body => body.venueId fun _ => none
  | payoutAccountBankDetails _ body => body.venueId fun _ => none
  | payoutAccountConfirm _ body => body.venueId fun _ => none
  | createEntertainer body => body.venueId fun _ => none
  | updateEntertainer _ body => body.venueId fun _ => none
  | kycBankDetails _ body => body.venueId fun _ => none
  | kycConfirm _ body => body.venueId fun _ => none
  | kycVerifyIdentity _ body => body.venueId fun _ => none
  | kycReview _ body => body.venueId fun _ => none
  | initializePayment body => body.venueId fun _ => none
  | updateSettings body => body.venueId fun _ => none
  | _ => none

/-- `request.params.entertainerId` -/
def paramEntertainerId : Route → Option Uuid
  | issueLoginLink e | entertainerOverview e | entertainerTransactions e _ | entertainerPayouts e _
  | findEntertainer e | updateEntertainer e _ | deactivateEntertainer e | linkToVenue e _ | unlinkFromVenue e _
  | kycStatus e | kycBankDetails e _ | kycResolve e | kycConfirm e _ | kycVerifyIdentity e _ | kycReview e _ =>
    some e
  | _ => none

end Route

/-! ### Guards -/

/-- What a request is refused with before its controller is called. -/
inductive Refusal where
  | unauthorized (message : String)
  | forbidden (message : String)
  | badRequest
  | tooManyRequests
  | internalServerError
deriving DecidableEq

/-- `request.user` -/
structure RequestUser where
  id : Uuid
  entertainerId : Option Uuid
  email : Option String
  role : Role
  venueId : Option Uuid
deriving DecidableEq

/-- `JwtStrategy.validate`: whom a token names is looked up again. -/
def validate (s : Server) (payload : JwtPayload) : Except Refusal RequestUser :=
  if payload.role = .ENTERTAINER then
    match s.db.entertainers.find (·.id == payload.entertainerId.getD payload.sub) with
    | none => .error (.unauthorized "Entertainer no longer active")
    | some entertainer =>
      if !entertainer.isActive then .error (.unauthorized "Entertainer no longer active")
      else .ok ⟨entertainer.id, some entertainer.id, none, .ENTERTAINER, none⟩
  else
    match s.users.find (·.id == payload.sub) with
    | none => .error (.unauthorized "User no longer active")
    | some user =>
      if !user.isActive then .error (.unauthorized "User no longer active")
      else .ok ⟨user.id, none, some user.email, user.role, user.venueId⟩

def jwtAuthGuard (config : Deployment) (now : Time) (s : Server) (r : Request) : Except Refusal (Option RequestUser) :=
  if r.route.isPublic then .ok none
  else match r.bearer.bind (config.verifyJwt now) with
    | none => .error (.unauthorized "Unauthorized")
    | some payload => (validate s payload).map some

def rolesGuard (user : Option RequestUser) (route : Route) : Except Refusal Unit :=
  if route.requiredRoles.isEmpty then .ok ()
  else if user.any fun u => route.requiredRoles.contains u.role then .ok ()
  else .error (.forbidden "Forbidden resource")

def venueScopedGuard (user : Option RequestUser) (route : Route) : Except Refusal Unit :=
  if !route.venueScoped then .ok ()
  else match user with
    | none => .error .internalServerError
    | some user =>
      if user.role = .PLATFORM_ADMIN then .ok ()
      else if user.role = .VENUE_ADMIN then
        match route.paramVenueId <|> route.bodyVenueId with
        | none => .error (.forbidden "Venue ID required for venue-scoped operation")
        | some resourceVenueId =>
          if user.venueId ≠ some resourceVenueId then .error (.forbidden "Access denied to this venue")
          else .ok ()
      else .error (.forbidden "Insufficient permissions")

def entertainerScopedGuard (s : Server) (user : Option RequestUser) (route : Route) : Except Refusal Unit :=
  if !route.entertainerScoped then .ok ()
  else match route.paramEntertainerId with
    | none => .error (.forbidden "Entertainer ID required for this operation")
    | some targetId => match user with
      | none => .error (.forbidden "Authentication required")
      | some user => match user.role with
        | .PLATFORM_ADMIN => .ok ()
        | .ENTERTAINER =>
          if user.entertainerId ≠ some targetId then
            .error (.forbidden "Entertainers may only access their own data")
          else .ok ()
        | .VENUE_ADMIN => match user.venueId with
          | none => .error (.forbidden "Venue admin is not assigned to a venue")
          | some venueId =>
            if (s.db.venueEntertainers.find (links venueId targetId)).isNone then
              .error (.forbidden "This entertainer does not perform at your venue")
            else .ok ()

/-- The guards in the order of `AppModule`, up to the rate limit. -/
def canActivate (config : Deployment) (now : Time) (s : Server) (r : Request) :
    Except Refusal (Option RequestUser) := do
  let user ← jwtAuthGuard config now s r
  rolesGuard user r.route
  venueScopedGuard user r.route
  entertainerScopedGuard s user r.route
  pure user

end Splitcore.Http
