import Splitcore.Http.Actors

/-!
Who can confirm an account: the entertainer, as long as the admin of a venue does not use the links that
were issued to pass on.
-/

namespace Splitcore.Http

open Relational Interleaving Onboarding

variable {config : Deployment} {userId : Uuid} {found : User} {past : List Exchange} {x : Exchange} {s s₀ : Server}

/-! ### What the session of an admin must not do -/

/-- Nobody was asked to confirm an account or to prove an identity, and no account was confirmed. -/
structure ConfirmsNobody (x : Exchange) : Prop where
  confirm : ∀ id name, x.request.route = .kycConfirm id name → ¬x.Called
  verify : ∀ id document, x.request.route = .kycVerifyIdentity id document → ¬x.Called
  accounts : NoNewConfirmation x.before.db x.after.db

/-- The token of a link that was returned is not redeemed while the link is open. -/
def RedeemsNoReturnedLink (config : Deployment) (past : List Exchange) (x : Exchange) : Prop :=
  ∀ token, x.request.route = .redeem (.valid token) → Returned Response.loginToken past token →
    ∀ row ∈ x.before.db.loginTokens.rows, row.tokenHash = config.hashToken token → row.consumedAt ≠ none

/-- In all sessions of somebody who starts with the account and whose requests are `ok`, only the
entertainers could confirm their accounts. -/
def OnlyEntertainersConfirm (config : Deployment) (userId : Uuid) (ok : List Exchange → Exchange → Prop)
    (s₀ : Server) : Prop :=
  ∀ xs s, Session config s₀ xs s →
    Along (fun past x => Knows config userId past x ∧ Signs config x ∧ ok past x) xs → ∀ x ∈ xs, ConfirmsNobody x

/-! ### What is so along the session -/

/-- The account is there, and every session token that was returned is one of the account. -/
structure OnlyAccount (config : Deployment) (userId : Uuid) (found : User) (past : List Exchange) (s : Server) :
    Prop where
  there : s.users.find (·.id == userId) = some found
  tokens : ∀ token, Returned Response.sessionToken past token →
    ∀ now payload, config.verifyJwt now token = some payload → payload.role ≠ .ENTERTAINER ∧ payload.sub = userId

/-- Whoever the request is from, it is the admin. -/
lemma OnlyAccount.bearer (h : OnlyAccount config userId found past s) (hknows : Knows config userId past x) :
    ∀ token payload, x.request.bearer = some token → config.verifyJwt x.now token = some payload →
      payload.role ≠ .ENTERTAINER ∧ payload.sub = userId := by
  intro token payload htoken hverify
  rcases hknows.bearer token payload htoken hverify with hown | hreturned
  · exact hown
  · exact h.tokens token hreturned x.now payload hverify

lemma OnlyAccount.snoc (h : OnlyAccount config userId found past x.before) (husers : x.after.users = x.before.users)
    (hnew : ∀ r token, x.response = some r → r.sessionToken = some token → ∀ now payload,
      config.verifyJwt now token = some payload → payload.role ≠ .ENTERTAINER ∧ payload.sub = userId) :
    OnlyAccount config userId found (past ++ [x]) x.after where
  there := by
    rw [husers]
    exact h.there
  tokens token hreturned := by
    rcases returned_snoc hreturned with hbefore | ⟨r, hr, htoken⟩
    · exact h.tokens token hbefore
    · exact hnew r token hr htoken

lemma OnlyAccount.snoc_plain (h : OnlyAccount config userId found past x.before)
    (husers : x.after.users = x.before.users) (hplain : ∀ r, x.response = some r → r.Plain) :
    OnlyAccount config userId found (past ++ [x]) x.after :=
  h.snoc husers fun r token hr htoken => by
    rw [(hplain r hr).1] at htoken
    cases htoken

/-- The account whose password is known is the one that is known. -/
lemma validateUser_role {dto : LoginDto} {user : User} (hfound : s.users.find (·.id == userId) = some found)
    (hvalid : validateUser config s.users dto = .ok user) (hid : user.id = userId) : user = found := by
  unfold validateUser at hvalid
  split at hvalid
  · cases hvalid
  rename_i user' huser
  split at hvalid
  · cases hvalid
  split at hvalid
  · cases hvalid
  cases hvalid
  have hid' : found.id = userId := eq_of_beq (Table.of_find hfound :)
  exact Table.eq_of_key (k := .id userId) (Table.mem_of_find huser) (Table.mem_of_find hfound)
    (by simp [Indexed.keys, hid]) (by simp [Indexed.keys, hid'])

/-- **One exchange.** -/
theorem confirmsNobody_exchange (hadmin : found.role = .VENUE_ADMIN) (h : OnlyAccount config userId found past x.before)
    (hx : Exchanges config x) (hknows : Knows config userId past x) (hsigns : Signs config x)
    (hlinks : RedeemsNoReturnedLink config past x) :
    OnlyAccount config userId found (past ++ [x]) x.after ∧ ConfirmsNobody x := by
  rcases exchanges_called hx with ⟨hnot, hafter, hresponse⟩ | ⟨user, res, hpass, hres, husers, hmakes⟩
  · refine ⟨h.snoc_plain (by rw [hafter]) fun r hr => ?_, fun _ _ _ => hnot, fun _ _ _ => hnot, ?_⟩
    · rw [hresponse] at hr
      cases hr
    · rw [hafter]
      exact noNewConfirmation_same rfl
  have hallows := allows_of_canActivate h.there hadmin (h.bearer hknows) hpass
  have hconfirm : ∀ id name, x.request.route ≠ .kycConfirm id name := by
    intro id name hroute
    have hrole := hallows.role
    rw [hroute] at hrole
    simp [Route.requiredRoles] at hrole
  have hverify : ∀ id document, x.request.route ≠ .kycVerifyIdentity id document := by
    intro id document hroute
    have hrole := hallows.role
    rw [hroute] at hrole
    simp [Route.requiredRoles] at hrole
  have hplainly : (∀ r, res = .ok r → r.Plain) → OnlyAccount config userId found (past ++ [x]) x.after :=
    fun hplain => h.snoc_plain husers fun r hr => hplain r ((response_handled hres).mp hr)
  have hdone : OnlyAccount config userId found (past ++ [x]) x.after →
      NoNewConfirmation x.before.db x.after.db →
      OnlyAccount config userId found (past ++ [x]) x.after ∧ ConfirmsNobody x := fun haccount haccounts =>
    ⟨haccount, fun id name hroute => absurd hroute (hconfirm id name),
      fun id document hroute => absurd hroute (hverify id document), haccounts⟩
  have hsame : ∀ {db db' : Db}, registry db' = registry db → NoNewConfirmation db db' :=
    fun heq => noNewConfirmation_same (congrArg (·.2.1) heq)
  cases hmakes with
  | nothing heq hplain => exact hdone (hplainly hplain) (hsame heq)
  | loggedIn dto user token hroute hok hvalid hsigned heq =>
    refine hdone (h.snoc husers fun r token' hr htoken now payload hpayload => ?_) (hsame heq)
    obtain rfl := Except.ok.inj (hok.symm.trans ((response_handled hres).mp hr))
    cases htoken
    have hid := hknows.password dto user hroute hvalid
    obtain rfl := validateUser_role h.there hvalid hid
    rw [hsigns _ _ _ hsigned now payload hpayload]
    exact ⟨by simp [userPayload, hadmin], hid⟩
  | redeemed token opened row hroute hok hrow hhash hopen heq =>
    -- the link was returned, so its token is not redeemed
    exact absurd hopen (hlinks token hroute (hknows.loginToken token hroute row hrow hhash) row hrow hhash)
  | proposed dto rule token url t hroute hok _ _ _ hdb _ =>
    refine hdone (h.snoc husers fun r token' hr htoken => ?_) (noNewConfirmation_same (by rw [hdb]))
    obtain rfl := Except.ok.inj (hok.symm.trans ((response_handled hres).mp hr))
    cases htoken
  | overridden _ _ _ _ _ hdb _ hplain => exact hdone (hplainly hplain) (noNewConfirmation_same (by rw [hdb]))
  | responded _ _ _ _ _ _ _ _ hdb _ hplain => exact hdone (hplainly hplain) (noNewConfirmation_same (by rw [hdb]))
  | venueCreated _ _ _ hdb hplain => exact hdone (hplainly hplain) (noNewConfirmation_same (by rw [hdb]))
  | venueWritten venueId _ _ hwrites hplain =>
    obtain ⟨t, -, hdb⟩ := hwrites
    exact hdone (hplainly hplain) (noNewConfirmation_same (by rw [hdb]; rfl))
  | confirmed id name hroute _ _ => exact absurd hroute (hconfirm id _)
  | onboarded _ _ _ hwrites hplain => exact hdone (hplainly hplain) (noNewConfirmation_writes hwrites)
  | operated _ _ _ _ hconfirms _ hplain => exact hdone (hplainly hplain) hconfirms

/-- **Only the entertainer can confirm**, in every session of a venue admin who does not redeem the links
that were returned. -/
theorem only_entertainers_confirm (hfound : s₀.users.find (·.id == userId) = some found)
    (hadmin : found.role = .VENUE_ADMIN) : OnlyEntertainersConfirm config userId (RedeemsNoReturnedLink config) s₀ := by
  intro xs s hsession halong
  refine (session_along hsession halong (I := OnlyAccount config userId found)
    ⟨hfound, fun _ h => absurd h not_returned_nil⟩ fun past x hbefore hx hok => ?_).2
  obtain ⟨hknows, hsigns, hlinks⟩ := hok
  exact confirmsNobody_exchange hadmin hbefore hx hknows hsigns hlinks

theorem only_entertainers_confirm_sample :
    OnlyEntertainersConfirm sampleDeployment (Money.uid 9) (RedeemsNoReturnedLink sampleDeployment) sampleServer :=
  only_entertainers_confirm
    (show sampleServer.users.find (·.id == Money.uid 9) = some sampleUser from rfl) rfl

/-! ### A link used by the one who issued it -/

/-- The admin gets a login link for the entertainer, redeems it, and confirms the account. -/
def confirmedForThem : List (Request × Input) :=
  [asAdmin 1 (.issueLoginLink (Money.uid 3)), asAdmin 2 (.redeem (.valid "1")),
    (⟨some "jwt", .kycConfirm (Money.uid 3) (.valid "ADA OBI")⟩, QrCodes.drawnAt 3)]

/-- An account was confirmed. -/
def confirmsSomebody (x : Exchange) : Bool := x.after.db.entertainers.rows.any fun e' =>
  e'.accountConfirmedAt.isSome && x.before.db.entertainers.rows.all fun e =>
    e.id != e'.id || e.accountConfirmedAt != e'.accountConfirmedAt

lemma not_confirmsNobody (h : confirmsSomebody x = true) : ¬ConfirmsNobody x := by
  intro hnobody
  obtain ⟨e', he', hboth⟩ := List.any_eq_true.mp h
  simp only [Bool.and_eq_true, List.all_eq_true, Bool.or_eq_true, bne_iff_ne] at hboth
  obtain ⟨hconfirmed, hall⟩ := hboth
  obtain ⟨e, he, hid, hsame⟩ := hnobody.accounts e' he' (Option.isSome_iff_ne_none.mp hconfirmed)
  rcases hall e he with hne | hne
  · exact hne hid
  · exact hne hsame

theorem admin_confirms : ¬OnlyEntertainersConfirm sampleDeployment (Money.uid 9) (fun _ _ => True) sampleServer := by
  intro honly
  have hrun : ((converse Money.agreeable sampleDeployment [] sampleServer confirmedForThem).any fun r =>
      passes (fun past x => knows sampleDeployment (Money.uid 9) past x && signs sampleDeployment x) [] r.1 &&
        r.1.any confirmsSomebody) = true := by decide +kernel
  obtain ⟨xs, s, hsession, halong, x, hx, hconfirms⟩ := session_passes knows_signs_of hrun
  exact not_confirmsNobody hconfirms (honly xs s hsession halong x hx)

end Splitcore.Http
