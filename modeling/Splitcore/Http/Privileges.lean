import Splitcore.Http.Consenting

/-!
What nobody but a platform admin can do, however many others put their accounts and what the responses
return together.
-/

namespace Splitcore.Http

open Relational Interleaving Onboarding SplitRules

variable {config : Deployment} {past : List Exchange} {x : Exchange} {s s' s₀ : Server} {route : Route}
  {now : Time} {r : Request} {user : Option RequestUser} {handler : Handler} {log : List (Did App)}
  {res : Except Err Response} {payload : JwtPayload}

/-! ### Who a request is from -/

/-- What the guards let pass, each of them let pass. -/
lemma canActivate_ok (h : canActivate config now s r = .ok user) :
    jwtAuthGuard config now s r = .ok user ∧ rolesGuard user r.route = .ok () ∧
      entertainerScopedGuard s user r.route = .ok () := by
  unfold canActivate at h
  rcases hjwt : jwtAuthGuard config now s r with e | u <;> rw [hjwt] at h
  · cases h
  rcases hroles : rolesGuard u r.route with e | ⟨⟩ <;> simp only [hroles, bind, Except.bind] at h
  · cases h
  rcases hvenue : venueScopedGuard u r.route with e | ⟨⟩ <;> simp only [hvenue] at h
  · cases h
  rcases hentertainer : entertainerScopedGuard s u r.route with e | ⟨⟩ <;> simp only [hentertainer] at h
  · cases h
  obtain rfl := Except.ok.inj h
  exact ⟨rfl, hroles, hentertainer⟩

/-- Whom the guards let pass to a route that is not public, a token names. -/
lemma canActivate_names (h : canActivate config now s r = .ok user) (hpublic : r.route.isPublic = false) :
    ∃ token payload u, r.bearer = some token ∧ config.verifyJwt now token = some payload ∧
      validate s payload = .ok u ∧ user = some u := by
  obtain ⟨hjwt, -, -⟩ := canActivate_ok h
  unfold jwtAuthGuard at hjwt
  rw [hpublic, if_neg Bool.false_ne_true] at hjwt
  rcases hpayload : r.bearer.bind (config.verifyJwt now) with _ | payload <;> simp only [hpayload] at hjwt
  · cases hjwt
  obtain ⟨token, htoken, hverify⟩ := Option.bind_eq_some_iff.mp hpayload
  rcases hvalid : validate s payload with e | found <;> rw [hvalid] at hjwt
  · cases hjwt
  · cases hjwt
    exact ⟨token, payload, found, htoken, hverify, hvalid, rfl⟩

/-- A route that asks for a role has a user of that role. -/
lemma canActivate_role (h : canActivate config now s r = .ok user) (hroles : r.route.requiredRoles ≠ []) :
    ∃ u, user = some u ∧ u.role ∈ r.route.requiredRoles := by
  obtain ⟨-, hguard, -⟩ := canActivate_ok h
  unfold rolesGuard at hguard
  rw [if_neg (by simpa using hroles)] at hguard
  split at hguard
  · rename_i hany
    obtain ⟨v, rfl, hv⟩ := (Option.any_eq_true _ _).mp hany
    exact ⟨v, rfl, List.contains_iff_mem.mp hv⟩
  · cases hguard

/-- A token names an entertainer, or an account that is not a platform admin's. -/
def NoPlatformAdmin (users : Table User) (payload : JwtPayload) : Prop :=
  payload.role = .ENTERTAINER ∨ ∀ user ∈ users.rows, user.id = payload.sub → user.role ≠ .PLATFORM_ADMIN

/-- The token of a session that is opened is signed for the entertainer whose link it was, who is active. -/
lemma redeem_signs {hashToken : String → String} {token : String} {opened : EntertainerAuth.EntertainerSession}
    {db db' : Db} (h : Ends databaseFault (EntertainerAuth.redeem hashToken token) db log (.ok opened) db') :
    ∃ row ∈ db.loginTokens.rows, row.tokenHash = hashToken token ∧
      .answered (.signAsync (EntertainerAuth.sessionPayload row.entertainerId) EntertainerAuth.SESSION_TTL)
        (.ok opened.accessToken) ∈ log ∧ opened.entertainerId = row.entertainerId ∧
      ∃ e ∈ db.entertainers.rows, e.id = row.entertainerId ∧ e.isActive = true := by
  rcases ends_bind h with ⟨e, he, -⟩ | ⟨found, _, ds, db₁, rfl, hfind, hrest⟩
  · cases he
  obtain ⟨rfl, -, hres | ⟨e, -, he⟩⟩ := ends_query hfind
  swap
  · cases he
  obtain rfl : found = EntertainerAuth.tokenWithEntertainer (hashToken token) db₁ := Except.ok.inj hres
  rcases hfound : EntertainerAuth.tokenWithEntertainer (hashToken token) db₁ with _ | ⟨candidate, entertainer⟩ <;>
    rw [hfound] at hrest
  · cases (ends_raise hrest).2.1
  dsimp only at hrest
  split at hrest
  · cases (ends_raise hrest).2.1
  rename_i hhash
  split at hrest
  · cases (ends_raise hrest).2.1
  rcases ends_bind hrest with ⟨e, he, -⟩ | ⟨now, _, ds₁, db₂, rfl, -, hrest⟩
  · cases he
  split at hrest
  · cases (ends_raise hrest).2.1
  split at hrest
  · cases (ends_raise hrest).2.1
  rename_i hactive
  rcases ends_bind hrest with ⟨e, he, -⟩ | ⟨count, _, ds₂, db₃, rfl, -, hrest⟩
  · cases he
  split at hrest
  · cases (ends_raise hrest).2.1
  rcases ends_bind hrest with ⟨e, he, -⟩ | ⟨accessToken, _, ds₃, db₄, rfl, hsign, hopens⟩
  · cases he
  obtain ⟨-, rfl⟩ := ends_request hsign
  obtain ⟨-, hopened, -⟩ := ends_ret hopens
  cases hopened
  obtain ⟨row, hrow, hpair⟩ := Option.bind_eq_some_iff.mp hfound
  obtain ⟨e, he, hpair⟩ := Option.bind_eq_some_iff.mp hpair
  cases hpair
  exact ⟨candidate, Table.mem_of_find hrow, (not_not.mp hhash).symm, by simp, rfl, entertainer,
    Table.mem_of_find he, eq_of_beq (Table.of_find he :), by simpa using hactive⟩

/-- What a session token that is returned was signed for. -/
inductive SignedFor (config : Deployment) (x : Exchange) (token : String) : Prop
  | admin (dto : LoginDto) (user : User) (hroute : x.request.route = .login (.valid dto))
      (hvalid : validateUser config x.before.users dto = .ok user)
      (hsigned : .answered (.signAsync (userPayload user) config.jwtExpiresIn) (.ok token) ∈ x.log)
  | entertainer (link : String) (row : EntertainerLoginToken) (hroute : x.request.route = .redeem (.valid link))
      (hrow : row ∈ x.before.db.loginTokens.rows) (hhash : row.tokenHash = config.hashToken link)
      (hsigned : .answered (.signAsync (EntertainerAuth.sessionPayload row.entertainerId)
        EntertainerAuth.SESSION_TTL) (.ok token) ∈ x.log)

lemma signedFor (hx : Exchanges config x) {response : Response} {token : String} (hresponse : x.response = some response)
    (htoken : response.sessionToken = some token) : SignedFor config x token := by
  rcases exchanges_called hx with ⟨-, -, hnone⟩ | ⟨user, res, -, hres, -, hmakes⟩
  · rw [hnone] at hresponse
    cases hresponse
  have hok := (response_handled hres).mp hresponse
  have hplainly : (∀ r, res = .ok r → r.Plain) → SignedFor config x token := fun hplain => by
    rw [(hplain response hok).1] at htoken
    cases htoken
  cases hmakes with
  | loggedIn dto user token' hroute hres' hvalid hsigned _ =>
    obtain rfl := Except.ok.inj (hok.symm.trans hres')
    obtain rfl := Option.some.inj htoken
    exact .admin dto user hroute hvalid hsigned
  | redeemed link opened _ hroute hres' _ _ _ _ =>
    obtain rfl := Except.ok.inj (hok.symm.trans hres')
    obtain rfl := Option.some.inj htoken
    cases hx with
    | refused _ => cases hres
    | turnedAway _ _ _ _ => cases hres
    | invalid _ _ => cases hres
    | @handled r now s s' user handler log res' _ hdispatch hruns =>
      rw [show r.route = .redeem (.valid link) from hroute] at hdispatch
      obtain rfl := Option.some.inj hdispatch
      obtain ⟨-, answer, hanswer, h⟩ := runs_service hruns
      obtain rfl := Outcome.handled.inj hres
      rw [hres'] at hanswer
      rcases answer with e | opened'
      · cases hanswer
      · cases hanswer
        obtain ⟨row, hrow, hhash, hsigned, -⟩ := redeem_signs h
        exact .entertainer link row hroute hrow hhash hsigned
  | proposed dto rule token' url t _ hres' _ _ _ _ _ =>
    obtain rfl := Except.ok.inj (hok.symm.trans hres')
    cases htoken
  | nothing _ hplain => exact hplainly hplain
  | overridden _ _ _ _ _ _ _ hplain => exact hplainly hplain
  | responded _ _ _ _ _ _ _ _ _ _ hplain => exact hplainly hplain
  | venueCreated _ _ _ _ hplain => exact hplainly hplain
  | venueWritten _ _ _ _ hplain => exact hplainly hplain
  | confirmed _ _ _ _ hplain => exact hplainly hplain
  | onboarded _ _ _ _ hplain => exact hplainly hplain
  | operated _ _ _ _ _ _ hplain => exact hplainly hplain

/-! ### The platform's share -/

/-- The share that proposals and overrides are made with. -/
def Server.feeBps (s : Server) : ℤ := s.platformFeeBps.getD DEFAULT_PLATFORM_FEE_BPS

/-- Only two routes are called on the settings. -/
lemma dispatch_settings {settings : PlatformSettingsResponse × Server}
    (h : dispatch config now s user route = some (.settings settings)) :
    settings = getSettings s ∨ ∃ body, route = .updateSettings body := by
  cases route with
  | getSettings =>
    obtain rfl := Handler.settings.inj (Option.some.inj h)
    exact .inl rfl
  | updateSettings body => exact .inr ⟨body, rfl⟩
  | login body =>
    obtain ⟨dto, rfl, hlogin⟩ := of_body h
    split at hlogin <;> cases hlogin
  | paymentCallback reference => cases reference <;> cases h
  | propose body | override body =>
    obtain ⟨dto, -, h⟩ := Option.bind_eq_some_iff.mp h
    obtain ⟨user, -, h⟩ := Option.map_eq_some_iff.mp h
    cases h
  | redeem body | respond _ _ body | createVenue body | updateVenue _ body | payoutAccountBankDetails _ body
  | payoutAccountConfirm _ body | createEntertainer body | updateEntertainer _ body | kycBankDetails _ body
  | kycConfirm _ body | kycVerifyIdentity _ body | kycReview _ body | createQrCode body
  | initializePayment body =>
    obtain ⟨dto, -, h⟩ := of_body h
    cases h
  | findAllVenues | findAllEntertainers | findAllQrCodes =>
    obtain ⟨user, -, h⟩ := Option.map_eq_some_iff.mp h
    cases h
  | _ => cases h

lemma runs_fee (hroute : ∀ body, route ≠ .updateSettings body)
    (hdispatch : dispatch config now s user route = some handler) (hruns : Runs s handler log res s') : s'.feeBps = s.feeBps := by
  cases hruns with
  | settings settings =>
    rcases dispatch_settings hdispatch with rfl | ⟨body, hbody⟩
    · rfl
    · exact absurd hbody (hroute body)
  | _ => rfl

/-- The share stays what it is, unless it is asked to be changed and the controller is called. -/
lemma exchanges_fee (hx : Exchanges config x) (hroute : ∀ body, x.request.route = .updateSettings body → ¬x.Called) :
    x.after.feeBps = x.before.feeBps := by
  cases hx with
  | refused _ => rfl
  | turnedAway _ _ _ _ => rfl
  | invalid _ _ => rfl
  | handled _ hdispatch hruns => exact runs_fee (fun body hbody => hroute body hbody ⟨_, rfl⟩) hdispatch hruns

/-! ### What is for platform admins only -/

/-- Requests of people none of whom is a platform admin: of the sessions and passwords, none of one, unless a
response returned it. -/
structure Outsiders (config : Deployment) (past : List Exchange) (x : Exchange) : Prop where
  bearer : ∀ token payload, x.request.bearer = some token → config.verifyJwt x.now token = some payload →
    NoPlatformAdmin x.before.users payload ∨ Returned Response.sessionToken past token
  password : ∀ dto user, x.request.route = .login (.valid dto) →
    validateUser config x.before.users dto = .ok user → user.role ≠ .PLATFORM_ADMIN

/-- The accounts are as they were, and no session that was returned is a platform admin's. -/
structure NoneKnown (config : Deployment) (users : Table User) (past : List Exchange) (s : Server) : Prop where
  same : s.users = users
  tokens : ∀ token, Returned Response.sessionToken past token →
    ∀ now payload, config.verifyJwt now token = some payload → NoPlatformAdmin users payload

lemma validateUser_mem {dto : LoginDto} {users : Table User} {user : User}
    (h : validateUser config users dto = .ok user) : user ∈ users.rows := by
  unfold validateUser at h
  split at h
  · cases h
  rename_i user' hfound
  split at h
  · cases h
  split at h
  · cases h
  cases h
  exact Table.mem_of_find hfound

lemma NoneKnown.snoc {users : Table User} (h : NoneKnown config users past x.before) (hx : Exchanges config x)
    (houtsiders : Outsiders config past x) (hsigns : Signs config x) (hsame : x.after.users = x.before.users) :
    NoneKnown config users (past ++ [x]) x.after where
  same := hsame.trans h.same
  tokens token hreturned now payload hpayload := by
    rcases returned_snoc hreturned with hbefore | ⟨r, hr, htoken⟩
    · exact h.tokens token hbefore now payload hpayload
    cases signedFor hx hr htoken with
    | admin dto user hroute hvalid hsigned =>
      -- of whom the password was known
      rw [hsigns _ _ _ hsigned now payload hpayload]
      refine .inr fun user' huser' hid => ?_
      rw [← h.same] at huser'
      obtain rfl : user' = user := Table.eq_of_key (k := .id user'.id) huser' (validateUser_mem hvalid)
        (by simp [Indexed.keys]) (by simp [Indexed.keys, hid, userPayload])
      exact houtsiders.password dto user' hroute hvalid
    | entertainer link row _ _ _ hsigned =>
      rw [hsigns _ _ _ hsigned now payload hpayload]
      exact .inl rfl

section InForceBy

variable {t t' : Table SplitRule} {accepts accepting : Prop} {venueId : Uuid} {rule : SplitRule}

end InForceBy

end Splitcore.Http
