import Splitcore.Http.Routes
import Splitcore.Onboarding.Onboarded
import Splitcore.SplitRules.Alone

/-!
Requests one after another, and what comes of each.
-/

namespace Splitcore.Http

open Relational Interleaving Isolation Dashboard Onboarding SplitRules

/-! ### Controllers -/

/-- What a controller calls, and the response it makes of the answer. -/
inductive Handler : Type 1 where
  | answer (res : Except Err Response)
  | service {α : Type} (p : Prog App α) (view : α → Response)
  | transaction {α : Type} (m : Tx α) (view : α → Response)
  | rules {α : Type} (c : Call Rules α) (view : α → Response)
  | settings (res : PlatformSettingsResponse × Server)

def Body.dto {α : Type} : Body α → Option α
  | .valid dto => some dto
  | .invalid _ => none

/-- The payment of a checkout the guest comes back from; one nobody knows of is shown as such. -/
def callbackPayment (reference : String) : Prog App (Option Money.PaymentStatusResponseDto) := do
  match ← (Money.getPaymentStatus reference).attempt with
  | .ok payment => pure (some payment)
  | .error (.notFound _) => pure none
  | .error e => .raise e

/-- What is called for a request the guards have let pass, unless the validation refuses its body. Routes
that need a user are not public. -/
def dispatch (config : Deployment) (now : Time) (s : Server) (user : Option RequestUser) : Route → Option Handler
  | .login body => body.dto.map fun dto => match validateUser config s.users dto with
    | .error e => .answer (.error e)
    | .ok found => .service (request (.signAsync (userPayload found) config.jwtExpiresIn)) .accessToken
  | .issueLoginLink entertainerId =>
    some (.service (EntertainerAuth.issueLoginLink config.hashToken config.urls entertainerId) .loginLink)
  | .redeem body => body.dto.map fun token =>
    .service (EntertainerAuth.redeem config.hashToken token) .session
  | .propose body => body.dto.bind fun dto => user.map fun user =>
    .rules (propose config.hashToken dto user.id) fun p =>
      .proposal (toResponse p.rule) p.consentToken (buildConsentUrl config p.rule.id p.consentToken)
  | .override body => body.dto.bind fun dto => user.map fun user =>
    .rules (forceSet dto user.id) fun rule => .splitRule (toResponse rule)
  | .getTerms id token =>
    some (.rules (findByConsentToken config.hashToken id token) fun rule => .terms (termsOf s rule))
  | .respond id token body => body.dto.map fun decision =>
    .rules (respond config.hashToken id token decision) fun rule => .splitRule (toResponse rule)
  | .findAllByVenue venueId => some (.answer (.ok (.splitRules (findAllByVenue s venueId))))
  | .findActiveByVenue venueId =>
    some (.service (Money.findActiveByVenue venueId) fun rule => .splitRule (toResponse rule))
  | .findAuditTrail id => some (.answer (.ok (.auditTrail (findAuditTrail s id))))
  | .createVenue body => body.dto.map fun dto =>
    .transaction (VenuesService.create dto) .venue
  | .findAllVenues => user.map fun user =>
    .answer (.ok (.venues (findAllVenues s user.id user.role)))
  | .findVenue venueId => some (.answer ((findVenue s venueId).map .venue))
  | .updateVenue venueId body => body.dto.map fun dto =>
    .transaction (VenuesService.update venueId dto) .venue
  | .deactivateVenue venueId => some (.transaction (VenuesService.deactivate venueId) .venue)
  | .payoutAccountStatus venueId =>
    some (.service (VenueAccount.find venueId) fun venue => .payoutAccount (VenueAccount.toView venue))
  | .payoutAccountBankDetails venueId body => body.dto.map fun dto =>
    .service (VenueAccount.submitBankDetails config.toUpperCase venueId dto) .payoutAccount
  | .payoutAccountResolve venueId => some (.service (VenueAccount.resolveAccount venueId) .payoutAccount)
  | .payoutAccountConfirm venueId body => body.dto.map fun name =>
    .service (VenueAccount.confirmAccount config.toUpperCase venueId name) .payoutAccount
  | .venueOverview venueId => some (.answer ((venueOverview venueId now s.db).map .venueOverview))
  | .entertainerEarnings venueId =>
    some (.answer (.ok (.entertainerEarnings (venueEntertainerEarnings config.nameLe venueId now s.db))))
  | .venueTransactions venueId query => some (.answer (.ok (.transactions (venueTransactions s.db venueId query))))
  | .venuePayouts venueId query => some (.answer (.ok (.payouts (venuePayouts s.db venueId query))))
  | .venueOwnPayouts venueId query => some (.answer (.ok (.payouts (venueOwnPayouts s.db venueId query))))
  | .entertainerOverview entertainerId =>
    some (.answer ((entertainerOverview entertainerId now s.db).map .entertainerOverview))
  | .entertainerTransactions entertainerId query =>
    some (.answer (.ok (.transactions (entertainerTransactions s.db entertainerId query))))
  | .entertainerPayouts entertainerId query =>
    some (.answer (.ok (.payouts (entertainerPayouts s.db entertainerId query))))
  | .createEntertainer body => body.dto.map fun dto =>
    .service (create dto) fun r => .entertainer ⟨r.1, r.2⟩
  | .findAllEntertainers => user.map fun user =>
    .answer (.ok (.entertainers (findAllEntertainers s user.id user.role)))
  | .findEntertainer entertainerId => some (.answer ((findEntertainer s entertainerId).map .entertainer))
  | .updateEntertainer entertainerId body => body.dto.map fun dto =>
    .service (update entertainerId dto) fun r => .entertainer ⟨r.1, r.2⟩
  | .deactivateEntertainer entertainerId =>
    some (.service (deactivate entertainerId) fun r => .entertainer ⟨r.1, r.2⟩)
  | .linkToVenue entertainerId venueId => some (.service (linkToVenue entertainerId venueId)
      fun _ => .message "Entertainer linked to venue successfully")
  | .unlinkFromVenue entertainerId venueId => some (.service (unlinkFromVenue entertainerId venueId)
      fun _ => .message "Entertainer unlinked from venue successfully")
  | .kycStatus entertainerId =>
    some (.service (find entertainerId) fun entertainer => .kycStatus (toView entertainer))
  | .kycBankDetails entertainerId body => body.dto.map fun dto =>
    .service (submitBankDetails config.toUpperCase entertainerId dto) .kycStatus
  | .kycResolve entertainerId => some (.service (resolveAccount entertainerId) .kycStatus)
  | .kycConfirm entertainerId body => body.dto.map fun name =>
    .service (confirmAccount config.toUpperCase entertainerId name) .kycStatus
  | .kycVerifyIdentity entertainerId body => body.dto.map fun document =>
    .service (verifyIdentity entertainerId document.1 document.2) .kycStatus
  | .kycReview entertainerId body => body.dto.map fun review =>
    .service (decideReview entertainerId review.1 review.2) .kycStatus
  | .createQrCode body => body.dto.map fun dto =>
    .service (QrCodes.create dto) .qrCode
  | .findAllQrCodes => user.map fun user =>
    .answer (.ok (.qrCodes (findAllQrCodes s user.id user.role)))
  | .findQrCode qrCodeId => some (.answer ((findQrCode s qrCodeId).map .qrCodeDetails))
  | .deactivateQrCode qrCodeId => some (.service (QrCodes.deactivate qrCodeId) .qrCode)
  | .regenerateQrCode qrCodeId => some (.service (QrCodes.regenerate qrCodeId) .qrCode)
  | .resolveQrCode publicToken => some (.transaction (resolveQrCode publicToken) .resolution)
  | .initializePayment body => body.dto.map fun dto =>
    .service (Money.initializePayment config.payments dto) .paymentInit
  | .getPaymentStatus reference => some (.service (Money.getPaymentStatus reference) .paymentStatus)
  | .paymentCallback none => some (.answer (.ok (.callbackPage none)))
  | .paymentCallback (some reference) => some (.service (callbackPayment reference) .callbackPage)
  | .handlePaystackWebhook delivery => some (.service
      (Webhooks.ingest config.webhookProvider config.queueEnabled delivery) fun _ => .received)
  | .getSettings => some (.settings (getSettings s))
  | .updateSettings body => body.dto.map fun platformFeeBps =>
    .settings (updateSettings platformFeeBps s)
  | .listBanks => some (.service (request .listBanks) .banks)
  | .health => some (.answer (.ok .health))

/-- What the statements of a transaction on the rules can fail with besides what the call throws. -/
def rulesFault (e : Err) : Prop := databaseFault e ∨ e = .uniqueViolation

/-- What a controller does when nobody else is at work. -/
inductive Runs (s : Server) : Handler → List (Did App) → Except Err Response → Server → Prop
  | answer (res : Except Err Response) : Runs s (.answer res) [] res s
  | service {α : Type} {p : Prog App α} {log : List (Did App)} {res : Except Err α} {db : Db}
      (view : α → Response) (h : Ends databaseFault p s.db log res db) :
      Runs s (.service p view) log (res.map view) { s with db := db }
  | committed {α : Type} {m : Tx α} {w : Input} {a : α} {db : Db} (view : α → Response)
      (h : m.run w s.db = .ok (a, db)) : Runs s (.transaction m view) [] (.ok (view a)) { s with db := db }
  | rolledBack {α : Type} {m : Tx α} {e : Err} (view : α → Response)
      (h : databaseFault e ∨ ∃ w, m.run w s.db = .error e) : Runs s (.transaction m view) [] (.error e) s
  | rules {α : Type} {c : Call Rules α} {res : Except Err α} {rules : Store Rules} (view : α → Response)
      (h : Commits rulesFault c s.rules res rules) : Runs s (.rules c view) [] (res.map view) (s.putRules rules)
  | settings (res : PlatformSettingsResponse × Server) : Runs s (.settings res) [] (.ok (.settings res.1)) res.2

/-! ### Exchanges -/

inductive Outcome where
  | refused (r : Refusal)
  | handled (res : Except Err Response)

structure Exchange where
  request : Request
  now : Time
  before : Server
  log : List (Did App)
  outcome : Outcome
  after : Server

/-- A request is refused by a guard, by the rate limit or the failure of a lookup, or by the validation;
or its controller is called. -/
inductive Exchanges (config : Deployment) : Exchange → Prop
  | refused {r : Request} {now : Time} {s : Server} {e : Refusal} (h : canActivate config now s r = .error e) :
      Exchanges config ⟨r, now, s, [], .refused e, s⟩
  | turnedAway (r : Request) (now : Time) (s : Server) {e : Refusal}
      (he : e = .tooManyRequests ∨ e = .internalServerError) : Exchanges config ⟨r, now, s, [], .refused e, s⟩
  | invalid {r : Request} {now : Time} {s : Server} {user : Option RequestUser}
      (h : canActivate config now s r = .ok user) (hbody : dispatch config now s user r.route = none) :
      Exchanges config ⟨r, now, s, [], .refused .badRequest, s⟩
  | handled {r : Request} {now : Time} {s s' : Server} {user : Option RequestUser} {handler : Handler}
      {log : List (Did App)} {res : Except Err Response} (h : canActivate config now s r = .ok user)
      (hroute : dispatch config now s user r.route = some handler) (hruns : Runs s handler log res s') :
      Exchanges config ⟨r, now, s, log, .handled res, s'⟩

namespace Exchange

/-- The body of the response, if it is no error. -/
def response (x : Exchange) : Option Response :=
  match x.outcome with
  | .handled (.ok response) => some response
  | _ => none

/-- The controller was called. -/
def Called (x : Exchange) : Prop := ∃ res, x.outcome = .handled res

/-- The client was answered by an error, and nothing happened. -/
def Rejected (x : Exchange) : Prop := x.response = none ∧ x.after = x.before

end Exchange

/-! ### Sessions -/

/-- Exchanges one after another, from the server `s₀` on. -/
inductive Session (config : Deployment) (s₀ : Server) : List Exchange → Server → Prop
  | nil : Session config s₀ [] s₀
  | snoc {xs : List Exchange} {x : Exchange} (h : Session config s₀ xs x.before) (hx : Exchanges config x) :
      Session config s₀ (xs ++ [x]) x.after

/-- Each exchange, after those before it, is as `C` says. -/
def Along (C : List Exchange → Exchange → Prop) (xs : List Exchange) : Prop :=
  ∀ past x rest, xs = past ++ x :: rest → C past x

lemma along_snoc {C : List Exchange → Exchange → Prop} {xs : List Exchange} {x : Exchange} :
    Along C (xs ++ [x]) ↔ Along C xs ∧ C xs x := by
  constructor
  · refine fun h => ⟨fun past y rest heq => h past y (rest ++ [x]) ?_, h xs x [] rfl⟩
    rw [heq]
    simp
  · rintro ⟨hxs, hx⟩ past y rest heq
    rcases eq_of_snoc heq with ⟨rfl, rfl, rfl⟩ | ⟨rest', rfl, heq'⟩
    · exact hx
    · exact hxs past y rest' heq'

/-- **What each exchange keeps, a session keeps**: `I` is what is so before each exchange, and `P` what comes of
it. -/
theorem session_along {config : Deployment} {s₀ s : Server} {xs : List Exchange}
    {C : List Exchange → Exchange → Prop} {I : List Exchange → Server → Prop} {P : Exchange → Prop}
    (hsession : Session config s₀ xs s) (halong : Along C xs) (hnil : I [] s₀)
    (hstep : ∀ past x, I past x.before → Exchanges config x → C past x → I (past ++ [x]) x.after ∧ P x) :
    I xs s ∧ ∀ x ∈ xs, P x := by
  induction hsession with
  | nil => exact ⟨hnil, fun x hx => by cases hx⟩
  | snoc hsession hx ih =>
    obtain ⟨hpast, hlast⟩ := along_snoc.mp halong
    obtain ⟨hbefore, hall⟩ := ih hpast
    obtain ⟨hafter, hx⟩ := hstep _ _ hbefore hx hlast
    refine ⟨hafter, fun y hy => ?_⟩
    rcases List.mem_append.mp hy with hy | hy
    · exact hall y hy
    · rw [List.mem_singleton.mp hy]
      exact hx

/-! ### Running them -/

section Run

variable (w : Input) (o : (q : Ask) → Except Err (Ans q))

/-- What a controller does when its statements take the input `w` and `o` answers what it asks; nothing,
if a unique index refuses a rule. -/
def Handler.perform (s : Server) : Handler → Option (List (Did App) × Except Err Response × Server)
  | .answer res => some ([], res, s)
  | .service p view =>
    let r := complete w o p s.db
    some (r.1, r.2.1.map view, { s with db := r.2.2 })
  | .transaction m view => match m.run w s.db with
    | .ok (a, db) => some ([], .ok (view a), { s with db := db })
    | .error e => some ([], .error e, s)
  | .rules c view => (c.perform (⟨w.now, w.uuid 0, w.randomBytes⟩ : Draw) s.rules).map fun did => match did with
    | (.ok a, store) => ([], .ok (view a), s.putRules store)
    | (.error e, _) => ([], .error e, s.putRules s.rules)
  | .settings res => some ([], .ok (.settings res.1), res.2)

def exchange (config : Deployment) (s : Server) (r : Request) : Option Exchange :=
  match canActivate config w.now s r with
  | .error e => some ⟨r, w.now, s, [], .refused e, s⟩
  | .ok user => match dispatch config w.now s user r.route with
    | none => some ⟨r, w.now, s, [], .refused .badRequest, s⟩
    | some handler => (handler.perform w o s).map fun did => ⟨r, w.now, s, did.1, .handled did.2.1, did.2.2⟩

/-- Requests one after another, each with an input of its own. -/
def converse (config : Deployment) : List Exchange → Server → List (Request × Input) → Option (List Exchange × Server)
  | xs, s, [] => some (xs, s)
  | xs, s, (r, w) :: rest => (exchange w o config s r).bind fun x => converse config (xs ++ [x]) x.after rest

variable {w o} {config : Deployment} {s s₀ s' : Server} {log : List (Did App)} {res : Except Err Response}

lemma runs_perform {handler : Handler} (h : handler.perform w o s = some (log, res, s')) :
    Runs s handler log res s' := by
  cases handler with
  | answer res =>
    cases h
    exact .answer _
  | service p view =>
    cases h
    exact .service view (ends_complete w o p s.db)
  | transaction m view =>
    rcases hm : m.run w s.db with e | ⟨a, db⟩ <;> simp only [Handler.perform, hm] at h <;> cases h
    · exact .rolledBack view (.inr ⟨w, hm⟩)
    · exact .committed view hm
  | rules c view =>
    obtain ⟨⟨r, store⟩, hc, h⟩ := Option.map_eq_some_iff.mp h
    rcases r with e | a
    · cases h
      exact .rules view ⟨store, alone_perform hc, rfl⟩
    · cases h
      exact .rules view ⟨store, alone_perform hc, rfl⟩
  | settings r =>
    cases h
    exact .settings _

lemma exchange_before {r : Request} {x : Exchange} (h : exchange w o config s r = some x) : x.before = s := by
  unfold exchange at h
  split at h
  · cases h
    rfl
  split at h
  · cases h
    rfl
  · obtain ⟨did, -, rfl⟩ := Option.map_eq_some_iff.mp h
    rfl

lemma exchanges_exchange {r : Request} {x : Exchange} (h : exchange w o config s r = some x) :
    Exchanges config x := by
  unfold exchange at h
  split at h
  · rename_i e hpass
    cases h
    exact .refused hpass
  rename_i user hpass
  split at h
  · rename_i hroute
    cases h
    exact .invalid hpass hroute
  · rename_i handler hroute
    obtain ⟨did, hdid, rfl⟩ := Option.map_eq_some_iff.mp h
    exact .handled hpass hroute (runs_perform hdid)

lemma session_converse {xs xs' : List Exchange} (acts : List (Request × Input)) (hsession : Session config s₀ xs s)
    (h : converse o config xs s acts = some (xs', s')) : Session config s₀ xs' s' := by
  induction acts generalizing xs s with
  | nil =>
    cases h
    exact hsession
  | cons act acts ih =>
    obtain ⟨r, w⟩ := act
    obtain ⟨x, hx, hrest⟩ := Option.bind_eq_some_iff.mp h
    obtain rfl := exchange_before hx
    exact ih (.snoc hsession (exchanges_exchange hx)) hrest

end Run

end Splitcore.Http
