import Splitcore.Http.Controllers

/-!
What somebody can do who starts with one admin's account and uses whatever the responses return, and what
the guards let that admin do.
-/

namespace Splitcore.Http

open Relational Interleaving Onboarding SplitRules QrCodes

/-! ### What a client knows -/

/-- A response returned the token. -/
def Returned (ofResponse : Response → Option String) (past : List Exchange) (token : String) : Prop :=
  ∃ x ∈ past, ∃ r, x.response = some r ∧ ofResponse r = some token

/-- Requests of somebody whose only credential is the account, and who may use what was returned: nobody
else's session or password, and no token of a link or a proposal that was not returned. -/
structure Knows (config : Deployment) (userId : Uuid) (past : List Exchange) (x : Exchange) : Prop where
  bearer : ∀ token payload, x.request.bearer = some token → config.verifyJwt x.now token = some payload →
    payload.role ≠ .ENTERTAINER ∧ payload.sub = userId ∨ Returned Response.sessionToken past token
  password : ∀ dto user, x.request.route = .login (.valid dto) →
    validateUser config x.before.users dto = .ok user → user.id = userId
  loginToken : ∀ token, x.request.route = .redeem (.valid token) →
    ∀ row ∈ x.before.db.loginTokens.rows, row.tokenHash = config.hashToken token →
      Returned Response.loginToken past token
  consentToken : ∀ id token decision, x.request.route = .respond id token decision →
    ∀ rule ∈ x.before.db.splitRules.rows, rule.responseTokenHash = some (config.hashToken token) →
      Returned Response.consentToken past token

/-- A token says what it was signed for, if anything. -/
def Signs (config : Deployment) (x : Exchange) : Prop :=
  ∀ payload expiresIn token, .answered (.signAsync payload expiresIn) (.ok token) ∈ x.log →
    ∀ now payload', config.verifyJwt now token = some payload' → payload' = payload

section Returned

variable {ofResponse : Response → Option String} {past : List Exchange} {x : Exchange} {token : String}

lemma not_returned_nil : ¬Returned ofResponse [] token := fun ⟨_, hx, _⟩ => by cases hx

lemma returned_snoc (h : Returned ofResponse (past ++ [x]) token) :
    Returned ofResponse past token ∨ ∃ r, x.response = some r ∧ ofResponse r = some token := by
  obtain ⟨y, hy, hboth⟩ := h
  rcases List.mem_append.mp hy with hy | hy
  · exact .inl ⟨y, hy, hboth⟩
  · obtain rfl := List.mem_singleton.mp hy
    exact .inr hboth

end Returned

/-! ### Exchanges and sessions -/

section Exchanges

variable {config : Deployment} {x : Exchange}

/-- An exchange changed nothing and gave nothing, or its controller was called. -/
lemma exchanges_called (h : Exchanges config x) :
    (¬x.Called ∧ x.after = x.before ∧ x.response = none) ∨ ∃ user res,
      canActivate config x.now x.before x.request = .ok user ∧ x.outcome = .handled res ∧
        x.after.users = x.before.users ∧ Makes config x.before x.request.route x.log res x.after := by
  have hrefused : ∀ {e : Refusal}, ¬∃ res, Outcome.refused e = .handled res := fun ⟨res, h⟩ => by cases h
  cases h with
  | refused h => exact .inl ⟨hrefused, rfl, rfl⟩
  | turnedAway r now s he => exact .inl ⟨hrefused, rfl, rfl⟩
  | invalid h hbody => exact .inl ⟨hrefused, rfl, rfl⟩
  | handled h hroute hruns =>
    obtain ⟨husers, hmakes⟩ := makes hroute hruns
    exact .inr ⟨_, _, h, rfl, husers, hmakes⟩

lemma response_handled {res : Except Err Response} {r : Response} (h : x.outcome = .handled res) :
    x.response = some r ↔ res = .ok r := by
  unfold Exchange.response
  rw [h]
  cases res <;> simp

end Exchanges

/-! ### What the guards let an admin do -/

/-- What a request is allowed to do for a venue admin. -/
structure Allows (s : Server) (venueId : Option Uuid) (route : Route) : Prop where
  role : route.requiredRoles = [] ∨ Role.VENUE_ADMIN ∈ route.requiredRoles
  venue : route.venueScoped = true → ∀ id, (route.paramVenueId <|> route.bodyVenueId) = some id → venueId = some id
  entertainer : route.entertainerScoped = true → ∀ id, route.paramEntertainerId = some id →
    ∃ v, venueId = some v ∧ Linked s.db v id

section Allows

variable {config : Deployment} {now : Time} {s : Server} {r : Request} {user : Option RequestUser} {found : User}

lemma public_unguarded {route : Route} (h : route.isPublic = true) :
    route.requiredRoles = [] ∧ route.venueScoped = false ∧ route.entertainerScoped = false := by
  cases route <;> first | exact ⟨rfl, rfl, rfl⟩ | cases h

/-- Whoever bears a token that names the account is the account. -/
lemma jwtAuthGuard_user {userId : Uuid} (hfound : s.users.find (·.id == userId) = some found)
    (hbearer : ∀ token payload, r.bearer = some token → config.verifyJwt now token = some payload →
      payload.role ≠ .ENTERTAINER ∧ payload.sub = userId)
    (h : jwtAuthGuard config now s r = .ok user) : r.route.isPublic = true ∨
      user = some ⟨found.id, none, some found.email, found.role, found.venueId⟩ := by
  unfold jwtAuthGuard at h
  split at h
  · rename_i hpublic
    exact .inl hpublic
  right
  rcases hpayload : r.bearer.bind (config.verifyJwt now) with _ | payload <;> rw [hpayload] at h
  · cases h
  obtain ⟨token, htoken, hverify⟩ := Option.bind_eq_some_iff.mp hpayload
  obtain ⟨hrole, hsub⟩ := hbearer token payload htoken hverify
  simp only [validate, if_neg hrole, hsub, hfound] at h
  split at h
  · cases h
  · cases h
    rfl

/-- **What the guards let pass** of a venue admin's requests. -/
theorem allows_of_canActivate {userId : Uuid} (hfound : s.users.find (·.id == userId) = some found)
    (hadmin : found.role = .VENUE_ADMIN)
    (hbearer : ∀ token payload, r.bearer = some token → config.verifyJwt now token = some payload →
      payload.role ≠ .ENTERTAINER ∧ payload.sub = userId)
    (h : canActivate config now s r = .ok user) : Allows s found.venueId r.route := by
  unfold canActivate at h
  rcases hjwt : jwtAuthGuard config now s r with e | u <;> rw [hjwt] at h
  · cases h
  rcases hroles : rolesGuard u r.route with e | ⟨⟩ <;> simp only [hroles, bind, Except.bind] at h
  · cases h
  rcases hvenue : venueScopedGuard u r.route with e | ⟨⟩ <;> simp only [hvenue] at h
  · cases h
  rcases hentertainer : entertainerScopedGuard s u r.route with e | ⟨⟩ <;> simp only [hentertainer] at h
  · cases h
  rcases jwtAuthGuard_user hfound hbearer hjwt with hpublic | rfl
  · obtain ⟨hroles, hvenue, hentertainer⟩ := public_unguarded hpublic
    exact ⟨.inl hroles, fun hscoped => absurd hscoped (by simp [hvenue]),
      fun hscoped => absurd hscoped (by simp [hentertainer])⟩
  refine ⟨?_, fun hscoped id hid => ?_, fun hscoped id hid => ?_⟩
  · unfold rolesGuard at hroles
    split at hroles
    · rename_i hempty
      exact .inl (List.isEmpty_iff.mp hempty)
    split at hroles
    · rename_i hany
      rw [Option.any_some, hadmin, List.contains_iff_mem] at hany
      exact .inr hany
    · cases hroles
  · simp only [venueScopedGuard, hscoped, hadmin, hid] at hvenue
    simpa using hvenue
  · simp only [entertainerScopedGuard, hscoped, hadmin, hid] at hentertainer
    rcases hv : found.venueId with _ | v <;> simp only [hv] at hentertainer
    · cases hentertainer
    rcases hlink : s.db.venueEntertainers.find (links v id) with _ | link <;> simp only [hlink] at hentertainer
    · cases hentertainer
    have hboth := Table.of_find hlink
    simp only [links, Bool.and_eq_true, beq_iff_eq] at hboth
    exact ⟨v, rfl, link, Table.mem_of_find hlink, hboth⟩

end Allows

/-! ### Checking a session -/

section Check

variable {config : Deployment} {userId : Uuid} {past : List Exchange} {x : Exchange}

def returned (ofResponse : Response → Option String) (past : List Exchange) (token : String) : Bool :=
  past.any fun x => x.response.any fun r => ofResponse r == some token

lemma returned_of {ofResponse : Response → Option String} {token : String}
    (h : returned ofResponse past token = true) : Returned ofResponse past token := by
  obtain ⟨x, hx, hr⟩ := List.any_eq_true.mp h
  obtain ⟨r, hr, htoken⟩ := (Option.any_eq_true _ _).mp hr
  exact ⟨x, hx, r, hr, eq_of_beq htoken⟩

def knows (config : Deployment) (userId : Uuid) (past : List Exchange) (x : Exchange) : Bool :=
  (x.request.bearer.all fun token => (config.verifyJwt x.now token).all fun payload =>
    (payload.role != .ENTERTAINER && payload.sub == userId) || returned Response.sessionToken past token) &&
  match x.request.route with
  | .login (.valid dto) => (validateUser config x.before.users dto).toOption.all (·.id == userId)
  | .redeem (.valid token) => returned Response.loginToken past token ||
    x.before.db.loginTokens.rows.all (·.tokenHash != config.hashToken token)
  | .respond _ token _ => returned Response.consentToken past token ||
    x.before.db.splitRules.rows.all (·.responseTokenHash != some (config.hashToken token))
  | _ => true

lemma knows_of (h : knows config userId past x = true) : Knows config userId past x := by
  obtain ⟨hbearer, hroute⟩ := Bool.and_eq_true_iff.mp h
  refine ⟨fun token payload htoken hverify => ?_, fun dto user hlogin hvalid => ?_,
    fun token hredeem row hrow hhash => ?_, fun id token decision hrespond rule hrule hhash => ?_⟩
  · rw [htoken, Option.all_some, hverify, Option.all_some, Bool.or_eq_true, Bool.and_eq_true] at hbearer
    rcases hbearer with ⟨hrole, hsub⟩ | hreturned
    · exact .inl ⟨bne_iff_ne.mp hrole, eq_of_beq hsub⟩
    · exact .inr (returned_of hreturned)
  · simp only [hlogin, hvalid, Except.toOption, Option.all_some] at hroute
    exact eq_of_beq hroute
  · simp only [hredeem, Bool.or_eq_true] at hroute
    rcases hroute with hreturned | hnone
    · exact returned_of hreturned
    · exact absurd hhash (bne_iff_ne.mp (List.all_eq_true.mp hnone row hrow))
  · simp only [hrespond, Bool.or_eq_true] at hroute
    rcases hroute with hreturned | hnone
    · exact returned_of hreturned
    · exact absurd hhash (bne_iff_ne.mp (List.all_eq_true.mp hnone rule hrule))

/-- Of a deployment whose tokens do not expire. -/
def signs (config : Deployment) (x : Exchange) : Bool := x.log.all fun
  | .answered (.signAsync payload _) (.ok token) => (config.verifyJwt 0 token).all (· == payload)
  | _ => true

lemma signs_of (hverify : ∀ now, config.verifyJwt now = config.verifyJwt 0) (h : signs config x = true) :
    Signs config x := by
  intro payload expiresIn token hmem now payload' hpayload
  have htoken := List.all_eq_true.mp h _ hmem
  rw [hverify now] at hpayload
  simpa [hpayload] using htoken

/-- Each exchange passes the check, after those before it. -/
def passes (check : List Exchange → Exchange → Bool) : List Exchange → List Exchange → Bool
  | _, [] => true
  | past, x :: rest => check past x && passes check (past ++ [x]) rest

lemma along_passes {check : List Exchange → Exchange → Bool} {C : List Exchange → Exchange → Prop}
    (hcheck : ∀ past x, check past x = true → C past x) {xs : List Exchange}
    (h : passes check [] xs = true) : Along C xs := by
  have hgeneral : ∀ done xs, passes check done xs = true →
      ∀ past x rest, xs = past ++ x :: rest → C (done ++ past) x := by
    intro done xs
    induction xs generalizing done with
    | nil =>
      intro _ past x rest heq
      simp at heq
    | cons y ys ih =>
      intro hpasses past x rest heq
      obtain ⟨hy, hys⟩ := Bool.and_eq_true_iff.mp hpasses
      rcases past with _ | ⟨z, past⟩
      · obtain ⟨rfl, -⟩ := List.cons.inj heq
        rw [List.append_nil]
        exact hcheck _ _ hy
      · obtain ⟨rfl, hrest⟩ := List.cons.inj heq
        have hlater := ih (done ++ [y]) hys past x rest hrest
        rwa [List.append_assoc] at hlater
  intro past x rest heq
  exact hgeneral [] xs h past x rest heq

/-- A session that passes the check, and has an exchange that is not as it should be. -/
lemma session_passes {check : List Exchange → Exchange → Bool} {C : List Exchange → Exchange → Prop}
    {bad : Exchange → Bool} {s₀ : Server} {requests : List (Request × Input)}
    (hcheck : ∀ past x, check past x = true → C past x)
    (h : ((converse Money.agreeable config [] s₀ requests).any fun r => passes check [] r.1 && r.1.any bad) = true) :
    ∃ xs s, Session config s₀ xs s ∧ Along C xs ∧ ∃ x ∈ xs, bad x = true := by
  obtain ⟨⟨xs, s⟩, hxs, hboth⟩ := (Option.any_eq_true _ _).mp h
  obtain ⟨hpasses, hany⟩ := Bool.and_eq_true_iff.mp hboth
  exact ⟨xs, s, session_converse _ .nil hxs, along_passes hcheck hpasses, List.any_eq_true.mp hany⟩

end Check

/-! ### A venue and its admin -/

def sampleUser : User := ⟨Money.uid 9, "bar@venue.ng", "hash", .VENUE_ADMIN, true, some (Money.uid 2)⟩

/-- The admin's session, and that of the entertainer. -/
def sampleJwt (token : String) : Option JwtPayload :=
  if token = "admin" then some (userPayload sampleUser)
  else if token = "jwt" then some (EntertainerAuth.sessionPayload (Money.uid 3))
  else none

def sampleDeployment : Deployment where
  hashToken token := "sha256:" ++ token
  compare password hash := password == hash
  verifyJwt _ := sampleJwt
  jwtExpiresIn := "1d"
  toUpperCase := id
  nameLe a b := decide (a ≤ b)
  urls := ⟨none, none⟩
  payments := Money.sampleConfig
  webhookProvider := ⟨"paystack", fun _ _ => true⟩
  queueEnabled := true

/-- An entertainer whose account the bank knows, and who has not confirmed it yet. -/
def unconfirmed : Entertainer := { Money.sampleEntertainer with kycStatus := .PENDING, accountConfirmedAt := none }

def sampleLink : VenueEntertainer := ⟨Money.uid 7, Money.uid 2, Money.uid 3⟩

lemma sampleLink_keys : ([sampleLink].flatMap Indexed.keys).Nodup := by decide

def sampleServer : Server where
  db := { venues := ⟨[Money.sampleVenue], Money.sampleVenue_keys⟩
          entertainers := ⟨[unconfirmed], by decide⟩
          venueEntertainers := ⟨[sampleLink], sampleLink_keys⟩ }
  users := ⟨[sampleUser], by decide⟩

lemma knows_signs_of {userId : Uuid} (past : List Exchange) (x : Exchange)
    (h : (knows sampleDeployment userId past x && signs sampleDeployment x) = true) :
    Knows sampleDeployment userId past x ∧ Signs sampleDeployment x ∧ True := by
  obtain ⟨hknows, hsigns⟩ := Bool.and_eq_true_iff.mp h
  exact ⟨knows_of hknows, signs_of (fun _ => rfl) hsigns, trivial⟩

/-- A request of the admin, at the time `k`. -/
def asAdmin (k : ℕ) (route : Route) : Request × Input := (⟨some "admin", route⟩, drawnAt k)

end Splitcore.Http
