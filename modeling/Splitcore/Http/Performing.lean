import Splitcore.Http.Confirming
import Splitcore.Http.Isolated
import Splitcore.Http.Privileges

/-!
What entertainers can do, and with whose data: each with their own, whatever several of them put together.
-/

namespace Splitcore.Http

open Relational Interleaving Onboarding SplitRules

variable {config : Deployment} {own : Uuid → Prop} {past : List Exchange} {x : Exchange} {s s₀ : Server} {route : Route}
  {now : Time} {r : Request} {user : Option RequestUser} {payload : JwtPayload}

/-! ### What the sessions are to keep to -/

/-- A token names one of the entertainers. -/
def NamesOwn (own : Uuid → Prop) (payload : JwtPayload) : Prop :=
  payload.role = .ENTERTAINER ∧ own (payload.entertainerId.getD payload.sub)

/-- Requests of the entertainers: with sessions of theirs, or that were returned, and with the links and the
proposals that are for them. -/
structure Holds (config : Deployment) (own : Uuid → Prop) (past : List Exchange) (x : Exchange) : Prop where
  bearer : ∀ token payload, x.request.bearer = some token → config.verifyJwt x.now token = some payload →
    NamesOwn own payload ∨ Returned Response.sessionToken past token
  password : ∀ dto user, x.request.route = .login (.valid dto) → validateUser config x.before.users dto ≠ .ok user
  loginToken : ∀ token, x.request.route = .redeem (.valid token) →
    ∀ row ∈ x.before.db.loginTokens.rows, row.tokenHash = config.hashToken token → own row.entertainerId
  consentToken : ∀ id token decision, x.request.route = .respond id token decision →
    ∀ rule ∈ x.before.db.splitRules.rows, rule.responseTokenHash = some (config.hashToken token) →
      ∃ e, rule.entertainerId = some e ∧ own e

/-- The request is one that anybody can make, or for the list of banks, or about one of the entertainers. -/
def AsksOwn (own : Uuid → Prop) (route : Route) : Prop :=
  route.isPublic = true ∨ route = .listBanks ∨
    ∃ e, own e ∧ route.entertainerScoped = true ∧ route.paramEntertainerId = some e

/-- The request answers an open proposal to one of them, with its token, and the rules are what they come to by
that answer. -/
def AnswersOwn (config : Deployment) (own : Uuid → Prop) (x : Exchange) : Prop :=
  ∃ rule ∈ x.before.db.splitRules.rows, ∃ e token decision at_,
    x.request.route = .respond rule.id token (.valid decision) ∧
      rule.responseTokenHash = some (config.hashToken token) ∧ rule.status = OPEN_PROPOSAL ∧
      rule.entertainerId = some e ∧ own e ∧ List.Forall₂ (AnsweredBy rule decision at_)
        x.before.db.splitRules.rows x.after.db.splitRules.rows

/-- Of the registry, at most the rows of the entertainers changed, and the rules by an answer to a proposal to one
of them; a request for anything else was rejected. -/
structure StaysOwn (config : Deployment) (own : Uuid → Prop) (x : Exchange) : Prop where
  rejected : ¬AsksOwn own x.request.route → ¬x.Called ∧ x.Rejected
  entertainers : List.Forall₂ (fun e e' => e' = e ∨ own e.id ∧ e'.id = e.id) x.before.db.entertainers.rows
    x.after.db.entertainers.rows
  venues : x.after.db.venues = x.before.db.venues
  qrCodes : x.after.db.qrCodes = x.before.db.qrCodes
  links : x.after.db.venueEntertainers = x.before.db.venueEntertainers
  splitRules : x.after.db.splitRules = x.before.db.splitRules ∨ AnswersOwn config own x
  users : x.after.users = x.before.users
  fee : x.after.feeBps = x.before.feeBps

/-- In all sessions of the entertainers, everybody stays with what is theirs. -/
def EntertainersStayOwn (config : Deployment) (own : Uuid → Prop) (s₀ : Server) : Prop :=
  ∀ xs s, Session config s₀ xs s → Along (fun past x => Holds config own past x ∧ Signs config x) xs →
    ∀ x ∈ xs, StaysOwn config own x

/-! ### What the guards let pass -/

lemma validate_own {u : RequestUser} (hnames : NamesOwn own payload) (h : validate s payload = .ok u) :
    u.role = .ENTERTAINER ∧ ∃ e, own e ∧ u.entertainerId = some e := by
  unfold validate at h
  rw [if_pos hnames.1] at h
  split at h
  · cases h
  rename_i found hfound
  split at h
  · cases h
  · cases h
    refine ⟨rfl, found.id, ?_, rfl⟩
    have hid : found.id = payload.entertainerId.getD payload.sub := eq_of_beq (Table.of_find hfound :)
    rw [hid]
    exact hnames.2

lemma entertainer_routes (hrole : Role.ENTERTAINER ∈ route.requiredRoles) :
    route = .listBanks ∨ route.entertainerScoped = true := by
  cases route <;> first | exact .inl rfl | exact .inr rfl | simp [Route.requiredRoles] at hrole

lemma public_of_noRoles (h : route.requiredRoles = []) : route.isPublic = true := by
  cases route <;> first | rfl | cases h

/-- **What the guards let pass** of the entertainers' requests. -/
theorem asksOwn_of_canActivate
    (hbearer : ∀ token payload, r.bearer = some token → config.verifyJwt now token = some payload →
      NamesOwn own payload)
    (h : canActivate config now s r = .ok user) : AsksOwn own r.route := by
  rcases hpublic : r.route.isPublic with _ | _
  swap
  · exact .inl hpublic
  right
  obtain ⟨token, payload, u, htoken, hverify, hvalid, rfl⟩ := canActivate_names h hpublic
  obtain ⟨hrole, e, hown, he⟩ := validate_own (hbearer token payload htoken hverify) hvalid
  have hroles : r.route.requiredRoles ≠ [] := by
    intro hnone
    rw [public_of_noRoles hnone] at hpublic
    cases hpublic
  obtain ⟨v, hv, hmem⟩ := canActivate_role h hroles
  obtain rfl := Option.some.inj hv
  rw [hrole] at hmem
  rcases entertainer_routes hmem with hbanks | hscoped
  · exact .inl hbanks
  right
  obtain ⟨-, -, hguard⟩ := canActivate_ok h
  rcases htarget : r.route.paramEntertainerId with _ | target
  · simp [entertainerScopedGuard, hscoped, htarget] at hguard
  obtain rfl : e = target := by simpa [entertainerScopedGuard, hscoped, hrole, htarget, he] using hguard
  exact ⟨e, hown, hscoped, rfl⟩

/-! ### What is so along the session -/

/-- Every session that was returned is one of the entertainers'. -/
def OnlyOwn (config : Deployment) (own : Uuid → Prop) (past : List Exchange) : Prop :=
  ∀ token, Returned Response.sessionToken past token →
    ∀ now payload, config.verifyJwt now token = some payload → NamesOwn own payload

lemma OnlyOwn.snoc (h : OnlyOwn config own past) (hx : Exchanges config x) (hholds : Holds config own past x)
    (hsigns : Signs config x) : OnlyOwn config own (past ++ [x]) := by
  intro token hreturned now payload hpayload
  rcases returned_snoc hreturned with hbefore | ⟨r, hr, htoken⟩
  · exact h token hbefore now payload hpayload
  cases signedFor hx hr htoken with
  | admin dto user hroute hvalid _ => exact absurd hvalid (hholds.password dto user hroute)
  | entertainer link row hroute hrow hhash hsigned =>
    rw [hsigns _ _ _ hsigned now payload hpayload]
    exact ⟨rfl, hholds.loginToken link hroute row hrow hhash⟩

/-- A row that was rewritten is one of theirs. -/
lemma entertainers_of_rewrites {id : Uuid} {R : Entertainer → Entertainer → Prop} {rows rows' : List Entertainer}
    (h : Rewrites Entertainer.id id R rows rows') (hown : own id) :
    List.Forall₂ (fun e e' => e' = e ∨ own e.id ∧ e'.id = e.id) rows rows' :=
  h.imp fun _ _ he => he.imp_right fun ⟨hid, hid', _⟩ => ⟨hid ▸ hown, hid'.trans hid.symm⟩

lemma entertainers_same (rows : List Entertainer) :
    List.Forall₂ (fun e e' => e' = e ∨ own e.id ∧ e'.id = e.id) rows rows := List.forall₂_same.mpr fun _ _ => .inl rfl

/-- What an answer makes of the rules. -/
lemma answersOwn_of_respond {id : Uuid} {token : String} {decision : Decision} (hx : Exchanges config x)
    (hroute : x.request.route = .respond id token (.valid decision)) (hholds : Holds config own past x) :
    x.after.db.splitRules = x.before.db.splitRules ∨ AnswersOwn config own x := by
  cases hx with
  | refused => exact .inl rfl
  | turnedAway => exact .inl rfl
  | invalid => exact .inl rfl
  | @handled r now s s' user handler log res _ hdispatch hruns =>
    rw [show r.route = _ from hroute] at hdispatch
    cases hdispatch
    obtain ⟨-, ⟨e, -, rfl⟩ | ⟨updated, rules, -, hdb, h⟩⟩ := runs_rules hruns
    · exact .inl rfl
    obtain ⟨rule, hrule, rfl, hhash, hopen, ⟨at_, hmoves⟩, -⟩ := respond_answers h
    obtain ⟨e, he, hown⟩ := hholds.consentToken rule.id token _ hroute rule hrule hhash
    refine .inr ⟨rule, hrule, e, token, decision, at_, hroute, hhash, hopen, he, hown, ?_⟩
    rw [show s'.db.splitRules = rules.table by rw [hdb]]
    exact hmoves

/-! What the entertainers do not ask for. -/

lemma not_bothScoped (hvenue : route.venueScoped = true) (hentertainer : route.entertainerScoped = true) : False := by
  cases route <;> first | (cases hvenue; done) | cases hentertainer

lemma not_forPlatform (hasks : AsksOwn own route) (hroles : route.requiredRoles = [.PLATFORM_ADMIN]) : False := by
  rcases hasks with hpublic | rfl | ⟨_, -, hscoped, -⟩
  · rw [(public_unguarded hpublic).1] at hroles
    cases hroles
  · cases hroles
  · cases route <;> first | (cases hroles; done) | cases hscoped

lemma not_operation {op : QrCodes.Operation} (hasks : AsksOwn own route) (hop : route.operation = some op) : False := by
  rcases hasks with hpublic | rfl | ⟨_, -, hscoped, -⟩
  · cases route <;> first | (cases hop; done) | cases hpublic
  · cases hop
  · cases route <;> first | (cases hop; done) | cases hscoped

/-- **One exchange.** -/
theorem staysOwn_exchange (h : OnlyOwn config own past) (hx : Exchanges config x) (hholds : Holds config own past x)
    (hsigns : Signs config x) : OnlyOwn config own (past ++ [x]) ∧ StaysOwn config own x := by
  refine ⟨h.snoc hx hholds hsigns, ?_⟩
  rcases exchanges_called hx with ⟨hnot, hafter, hresponse⟩ | ⟨user, res, hpass, hres, husers, hmakes⟩
  · exact ⟨fun _ => ⟨hnot, hresponse, hafter⟩, by rw [hafter]; exact entertainers_same _, by rw [hafter],
      by rw [hafter], by rw [hafter], .inl (by rw [hafter]), by rw [hafter], by rw [hafter]⟩
  have hasks : AsksOwn own x.request.route := asksOwn_of_canActivate (fun token payload htoken hverify =>
    (hholds.bearer token payload htoken hverify).elim id fun hreturned => h token hreturned x.now payload hverify)
    hpass
  have hnot : x.request.route.isPublic = false → x.request.route ≠ .listBanks →
      x.request.route.entertainerScoped = false → StaysOwn config own x := by
    intro hpublic hbanks hscoped
    rcases hasks with hasks | hasks | ⟨_, -, hasks, -⟩
    · rw [hpublic] at hasks
      cases hasks
    · exact absurd hasks hbanks
    · rw [hscoped] at hasks
      cases hasks
  have hfee := exchanges_fee hx fun body hroute => by
    rintro -
    rw [hroute] at hasks
    rcases hasks with hasks | hasks | ⟨_, -, hasks, -⟩ <;> cases hasks
  have hdone := fun hentertainers hvenues hcodes hlinks hrules =>
    show StaysOwn config own x from
      ⟨fun hother => absurd hasks hother, hentertainers, hvenues, hcodes, hlinks, hrules, husers, hfee⟩
  have hregistry : registry x.after.db = registry x.before.db → StaysOwn config own x := by
    intro heq
    obtain ⟨hvenues, heq⟩ := Prod.mk.inj heq
    obtain ⟨hentertainers, heq⟩ := Prod.mk.inj heq
    obtain ⟨hlinks, heq⟩ := Prod.mk.inj heq
    obtain ⟨hcodes, hrules⟩ := Prod.mk.inj heq
    exact hdone (by rw [hentertainers]; exact entertainers_same _) hvenues hcodes hlinks (.inl hrules)
  have hwritten : ∀ {R : Entertainer → Entertainer → Prop} {id : Uuid}, own id →
      WritesEntertainer id R x.before.db x.after.db → StaysOwn config own x := by
    rintro R id hown ⟨t, hrows, hdb⟩
    rw [hdb] at hdone
    exact hdone (entertainers_of_rewrites hrows hown) rfl rfl rfl (.inl rfl)
  cases hmakes with
  | nothing heq _ => exact hregistry heq
  | loggedIn _ _ _ _ _ _ _ heq => exact hregistry heq
  | redeemed _ _ _ _ _ _ _ _ heq => exact hregistry heq
  | proposed dto rule token url t hroute _ _ _ _ _ _ =>
    rw [hroute] at hnot
    exact hnot rfl Route.noConfusion rfl
  | overridden dto rule t hroute _ _ _ _ =>
    rw [hroute] at hnot
    exact hnot rfl Route.noConfusion rfl
  | responded token decision rule t hroute _ _ _ hdb _ _ =>
    have hrules := answersOwn_of_respond hx hroute hholds
    rw [hdb] at hdone hrules
    exact hdone (entertainers_same _) rfl rfl rfl hrules
  | venueCreated dto t hroute _ _ =>
    rw [hroute] at hnot
    exact hnot rfl Route.noConfusion rfl
  | venueWritten venueId hscoped hparam _ _ =>
    rcases hasks with hasks | hasks | ⟨_, -, hasks, -⟩
    · rw [(public_unguarded hasks).2.1] at hscoped
      cases hscoped
    · rw [hasks] at hscoped
      cases hscoped
    · exact (not_bothScoped hscoped hasks).elim
  | confirmed id name hroute hwrites _ =>
    rw [hroute] at hasks
    rcases hasks with hasks | hasks | ⟨e, hown, -, hparam⟩
    · cases hasks
    · cases hasks
    · obtain rfl := Option.some.inj hparam
      exact hwritten hown hwrites
  | onboarded id hguarded hparam hwrites _ =>
    rcases hguarded with hscoped | hplatform
    · rcases hasks with hasks | hasks | ⟨e, hown, -, hparam'⟩
      · rw [(public_unguarded hasks).2.2] at hscoped
        cases hscoped
      · rw [hasks] at hscoped
        cases hscoped
      · obtain rfl := Option.some.inj (hparam.symm.trans hparam')
        exact hwritten hown hwrites
    · exact (not_forPlatform hasks hplatform).elim
  | operated op hroute _ _ _ _ _ => exact (not_operation hasks hroute).elim

/-- **Entertainers stay with what is theirs**, in every session of any of them. -/
theorem entertainers_stay_own : EntertainersStayOwn config own s₀ := by
  intro xs s hsession halong
  refine (session_along hsession halong (I := fun past _ => OnlyOwn config own past)
    (fun _ h => absurd h not_returned_nil) fun past x hbefore hx hok => ?_).2
  obtain ⟨hholds, hsigns⟩ := hok
  exact staysOwn_exchange hbefore hx hholds hsigns

/-! ### A session of one entertainer -/

def holds (config : Deployment) (id : Uuid) (past : List Exchange) (x : Exchange) : Bool :=
  (x.request.bearer.all fun token => (config.verifyJwt x.now token).all fun payload =>
    (payload.role == .ENTERTAINER && payload.entertainerId.getD payload.sub == id) ||
      returned Response.sessionToken past token) &&
  match x.request.route with
  | .login (.valid dto) => (validateUser config x.before.users dto).toOption.isNone
  | .redeem (.valid token) => x.before.db.loginTokens.rows.all fun row =>
    row.tokenHash != config.hashToken token || row.entertainerId == id
  | .respond _ token _ => x.before.db.splitRules.rows.all fun rule =>
    rule.responseTokenHash != some (config.hashToken token) || rule.entertainerId == some id
  | _ => true

lemma holds_of {id : Uuid} (h : holds config id past x = true) : Holds config (· = id) past x := by
  obtain ⟨hbearer, hroute⟩ := Bool.and_eq_true_iff.mp h
  refine ⟨fun token payload htoken hverify => ?_, fun dto user hlogin hvalid => ?_,
    fun token hredeem row hrow hhash => ?_, fun rid token decision hrespond rule hrule hhash => ?_⟩
  · rw [htoken, Option.all_some, hverify, Option.all_some, Bool.or_eq_true, Bool.and_eq_true] at hbearer
    rcases hbearer with ⟨hrole, hid⟩ | hreturned
    · exact .inl ⟨eq_of_beq hrole, eq_of_beq hid⟩
    · exact .inr (returned_of hreturned)
  · simp [hlogin, hvalid, Except.toOption] at hroute
  · simp only [hredeem, List.all_eq_true, Bool.or_eq_true, bne_iff_ne, beq_iff_eq] at hroute
    exact (hroute row hrow).resolve_left (not_not.mpr hhash)
  · simp only [hrespond, List.all_eq_true, Bool.or_eq_true, bne_iff_ne, beq_iff_eq] at hroute
    exact ⟨id, (hroute rule hrule).resolve_left (not_not.mpr hhash), rfl⟩

/-- The entertainer opens a session by a link, confirms the account, and asks for what the venue takes. -/
def looksAround : List (Request × Input) :=
  [(⟨none, .redeem (.valid "link")⟩, QrCodes.drawnAt 1),
    (⟨some "jwt", .kycConfirm (Money.uid 3) (.valid "ADA OBI")⟩, QrCodes.drawnAt 2),
    (⟨some "jwt", .venueOverview (Money.uid 2)⟩, QrCodes.drawnAt 3)]

def linkedServer : Server :=
  { sampleServer with db := { sampleServer.db with
      loginTokens := ⟨[⟨Money.uid 8, Money.uid 3, "sha256:link", 100, none⟩], by decide⟩ } }

theorem entertainers_stay_own_sample : ∃ xs s, Session sampleDeployment linkedServer xs s ∧
    ∃ x ∈ xs, confirmsSomebody x = true ∧ StaysOwn sampleDeployment (· = Money.uid 3) x := by
  have hrun : ((converse Money.agreeable sampleDeployment [] linkedServer looksAround).any fun r =>
      passes (fun past x => holds sampleDeployment (Money.uid 3) past x && signs sampleDeployment x) [] r.1 &&
        r.1.any confirmsSomebody) = true := by decide +kernel
  obtain ⟨xs, s, hsession, halong, x, hx, hconfirms⟩ := session_passes
    (C := fun past x => Holds sampleDeployment (· = Money.uid 3) past x ∧ Signs sampleDeployment x)
    (fun _ _ hcheck => ⟨holds_of (Bool.and_eq_true_iff.mp hcheck).1,
      signs_of (fun _ => rfl) (Bool.and_eq_true_iff.mp hcheck).2⟩) hrun
  exact ⟨xs, s, hsession, x, hx, hconfirms, entertainers_stay_own xs s hsession halong x hx⟩

end Splitcore.Http
