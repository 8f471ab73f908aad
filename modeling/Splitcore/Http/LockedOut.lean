import Splitcore.Http.Privileges

/-!
Who is deactivated is locked out at once: no token or link they still have is of any use from the next request
on, until an admin activates them again.
-/

namespace Splitcore.Http

open Relational Interleaving Onboarding

variable {config : Deployment} {id : Uuid} {x : Exchange} {s s' s₀ : Server} {route : Route} {now : Time} {r : Request}
  {user : Option RequestUser} {payload : JwtPayload} {db db' : Db} {log : List (Did App)} {handler : Handler}
  {res : Except Err Response} {xs : List Exchange}

/-! ### Who is locked out -/

def Inactive (id : Uuid) (db : Db) : Prop := ∃ e ∈ db.entertainers.rows, e.id = id ∧ e.isActive = false

def Deactivates (id : Uuid) (x : Exchange) : Prop := x.request.route = .deactivateEntertainer id ∧ x.response ≠ none

def Reactivates (id : Uuid) (x : Exchange) : Prop :=
  ∃ dto, x.request.route = .updateEntertainer id (.valid dto) ∧ dto.isActive = some true ∧ x.Called

/-- The request has a token that names somebody. -/
def TokenOf (config : Deployment) (x : Exchange) (names : JwtPayload → Prop) : Prop :=
  ∃ token payload, x.request.bearer = some token ∧ config.verifyJwt x.now token = some payload ∧ names payload

def NamesEntertainer (id : Uuid) (payload : JwtPayload) : Prop :=
  payload.role = .ENTERTAINER ∧ payload.entertainerId.getD payload.sub = id

def NamesUser (id : Uuid) (payload : JwtPayload) : Prop := payload.role ≠ .ENTERTAINER ∧ payload.sub = id

/-- Neither the entertainer's sessions are of use, nor their links, nor the codes that name them; and no link is
made for them. -/
structure ShutsOut (config : Deployment) (id : Uuid) (x : Exchange) : Prop where
  bearer : TokenOf config x (NamesEntertainer id) → x.request.route.isPublic = false → ¬x.Called ∧ x.Rejected
  redeemed : ∀ token opened, x.request.route = .redeem token → x.response = some (.session opened) →
    opened.entertainerId ≠ id
  issued : x.request.route = .issueLoginLink id → x.response = none
  scanned : ∀ token resolution, x.request.route = .resolveQrCode token →
    x.response = some (.resolution resolution) → ∀ e, resolution.entertainer = some e → e.1 ≠ id

structure ShutsOutAccount (config : Deployment) (account : User) (x : Exchange) : Prop where
  bearer : TokenOf config x (NamesUser account.id) → x.request.route.isPublic = false → ¬x.Called ∧ x.Rejected
  login : ∀ dto, x.request.route = .login (.valid dto) → dto.email = account.email → x.response = none

/-- In every session, from when an entertainer was deactivated until an admin activates them again; and for
accounts, which nothing activates. -/
structure LocksOut (config : Deployment) (s₀ : Server) : Prop where
  entertainers : ∀ id xs s, Session config s₀ xs s → ∀ past x rest, xs = past ++ x :: rest → Deactivates id x →
    (∀ y ∈ rest, ¬Reactivates id y) → ∀ y ∈ rest, ShutsOut config id y
  accounts : ∀ account ∈ s₀.users.rows, account.isActive = false → ∀ xs s, Session config s₀ xs s →
    ∀ x ∈ xs, ShutsOutAccount config account x

/-! ### What is looked up -/

lemma names_user : Table.Names (fun u : User => u.id == id) (.id id) := fun u hu => by
  simp only [beq_iff_eq] at hu
  simp [Indexed.keys, hu]

lemma names_email {email : String} : Table.Names (fun u : User => u.email == email) (.text email) := fun u hu => by
  simp only [beq_iff_eq] at hu
  simp [Indexed.keys, hu]

/-- There is one entertainer with the id, and it is not active. -/
lemma Inactive.of_mem (h : Inactive id db) {e : Entertainer} (he : e ∈ db.entertainers.rows) (hid : e.id = id) :
    e.isActive = false := by
  obtain ⟨e₀, hmem, hid₀, hinactive⟩ := h
  have hfind := (Table.find_eq_some (t := db.entertainers) names_entertainer).mpr ⟨he, beq_iff_eq.mpr hid⟩
  rw [(Table.find_eq_some names_entertainer).mpr ⟨hmem, beq_iff_eq.mpr hid₀⟩] at hfind
  cases hfind
  exact hinactive

lemma validate_inactive (h : Inactive id s.db) (hnames : NamesEntertainer id payload) :
    ∃ e, validate s payload = .error e := by
  unfold validate
  rw [if_pos hnames.1, hnames.2]
  rcases hfound : s.db.entertainers.find (·.id == id) with _ | e
  · exact ⟨_, rfl⟩
  · have hinactive := h.of_mem (Table.mem_of_find hfound) (eq_of_beq (Table.of_find hfound :))
    exact ⟨_, by simp [hinactive]; rfl⟩

lemma validate_inactiveAccount {account : User} (hmem : account ∈ s.users.rows) (hinactive : account.isActive = false)
    (hnames : NamesUser account.id payload) : ∃ e, validate s payload = .error e := by
  unfold validate
  rw [if_neg hnames.1, hnames.2, (Table.find_eq_some names_user).mpr ⟨hmem, beq_self_eq_true _⟩]
  exact ⟨_, by simp [hinactive]; rfl⟩

/-- Whose token names nobody active gets nowhere but to where everybody does. -/
lemma refused_of_validate {names : JwtPayload → Prop} (hx : Exchanges config x)
    (hnames : ∀ payload, names payload → ∃ e, validate x.before payload = .error e) (htoken : TokenOf config x names)
    (hpublic : x.request.route.isPublic = false) : ¬x.Called ∧ x.Rejected := by
  obtain ⟨token, payload, hbearer, hverify, hpayload⟩ := htoken
  obtain ⟨e, he⟩ := hnames payload hpayload
  rcases exchanges_called hx with ⟨hnot, hsame, hnone⟩ | ⟨user, res, hpass, -⟩
  · exact ⟨hnot, hnone, hsame⟩
  · simp [canActivate, jwtAuthGuard, hpublic, hbearer, hverify, he, Except.map, bind, Except.bind] at hpass

/-! ### What is handed out -/

/-- The database as a controller found it, and what it came to. -/
lemma ends_of_route {α : Type} {p : Prog App α} {view : α → Response} {response : Response} (hx : Exchanges config x)
    (hroute : ∀ now s user, dispatch config now s user x.request.route = some (.service p view))
    (hresponse : x.response = some response) :
    ∃ a, response = view a ∧ Ends databaseFault p x.before.db x.log (.ok a) x.after.db := by
  cases hx with
  | refused => cases hresponse
  | turnedAway => cases hresponse
  | invalid => cases hresponse
  | @handled r now s s' user handler log res _ hdispatch hruns =>
    rw [hroute] at hdispatch
    cases hdispatch
    obtain ⟨-, a, rfl, hends⟩ := runs_service hruns
    rcases a with e | a
    · cases hresponse
    · cases hresponse
      exact ⟨a, rfl, hends⟩

lemma redeemed_active {token : Body String} {opened : EntertainerAuth.EntertainerSession} (hx : Exchanges config x)
    (hroute : x.request.route = .redeem token) (hresponse : x.response = some (.session opened)) :
    ∃ e ∈ x.before.db.entertainers.rows, e.id = opened.entertainerId ∧ e.isActive = true := by
  rcases token with link | _
  · obtain ⟨a, hopened, hends⟩ := ends_of_route hx (fun _ _ _ => by rw [hroute]; rfl) hresponse
    cases hopened
    obtain ⟨row, -, -, -, hid, e, he, heid, hactive⟩ := redeem_signs hends
    exact ⟨e, he, heid.trans hid.symm, hactive⟩
  · cases hx with
    | refused => cases hresponse
    | turnedAway => cases hresponse
    | invalid => cases hresponse
    | @handled r now s s' user handler log res _ hdispatch hruns =>
      rw [show r.route = _ from hroute] at hdispatch
      cases hdispatch

lemma issued_active (hx : Exchanges config x) (hroute : x.request.route = .issueLoginLink id)
    (hresponse : x.response ≠ none) : ∃ e ∈ x.before.db.entertainers.rows, e.id = id ∧ e.isActive = true := by
  obtain ⟨response, hresponse⟩ := Option.ne_none_iff_exists'.mp hresponse
  obtain ⟨a, -, hends⟩ := ends_of_route hx (fun _ _ _ => by rw [hroute]; rfl) hresponse
  rcases ends_bind hends with ⟨e, he, -⟩ | ⟨found, _, _, db₁, -, hfind, hrest⟩
  · cases he
  obtain ⟨rfl, -, hres | ⟨e, -, he⟩⟩ := ends_query hfind
  swap
  · cases he
  obtain rfl := Except.ok.inj hres
  rcases hfound : x.before.db.entertainers.find (·.id == id) with _ | e <;> rw [hfound] at hrest
  · cases (ends_raise hrest).2.1
  dsimp only at hrest
  split at hrest
  · cases (ends_raise hrest).2.1
  · rename_i hactive
    exact ⟨e, Table.mem_of_find hfound, eq_of_beq (Table.of_find hfound :), by simpa using hactive⟩

lemma resolveQrCode_active {publicToken : String} {resolution : QrResolution} {w : Input} {e : Uuid × String}
    (h : (Http.resolveQrCode publicToken).run w db = .ok (resolution, db')) (he : resolution.entertainer = some e) :
    ∃ row ∈ db.entertainers.rows, row.id = e.1 ∧ row.isActive = true := by
  obtain ⟨n, hn⟩ := Tx.run_ok.mp h
  obtain ⟨found, σ₁, hfind, hn⟩ := Tx.bind_ok.mp hn
  obtain ⟨-, rfl⟩ := Tx.read_ok.mp hfind
  split at hn
  · exact (Tx.throw_ok.mp hn).elim
  rename_i qrCode _
  obtain ⟨venue, σ₂, hvenue, hn⟩ := Tx.bind_ok.mp hn
  obtain ⟨-, rfl⟩ := Tx.read_ok.mp hvenue
  obtain ⟨entertainer, σ₃, hread, hn⟩ := Tx.bind_ok.mp hn
  obtain ⟨hentertainer, rfl⟩ := Tx.read_ok.mp hread
  split at hn
  · exact (Tx.throw_ok.mp hn).elim
  split at hn
  · exact (Tx.throw_ok.mp hn).elim
  split at hn
  · exact (Tx.throw_ok.mp hn).elim
  split at hn
  · exact (Tx.throw_ok.mp hn).elim
  rename_i hactive
  obtain ⟨now, σ₄, -, hn⟩ := Tx.bind_ok.mp hn
  obtain ⟨sessionId, σ₅, -, hn⟩ := Tx.bind_ok.mp hn
  obtain ⟨⟨⟩, σ₆, -, hn⟩ := Tx.bind_ok.mp hn
  obtain ⟨rfl, -⟩ := Tx.pure_ok.mp hn
  obtain ⟨row, hrow, rfl⟩ := Option.map_eq_some_iff.mp he
  rw [hrow] at hactive hentertainer
  obtain ⟨entertainerId, -, hfound⟩ := Option.bind_eq_some_iff.mp hentertainer
  exact ⟨row, Table.mem_of_find hfound, rfl, by simpa using hactive⟩

lemma deactivated_inactive {r : Entertainer × List Uuid} (h : Ends databaseFault (Onboarding.deactivate id) db log (.ok r) db') :
    Inactive id db' := by
  rcases ends_bind h with ⟨e, he, -⟩ | ⟨result, _, _, db₁, -, htried, hrest⟩
  · cases he
  obtain ⟨stated, hstated, hstmt⟩ := ends_attempt htried
  cases hstated
  rcases result with e | updated
  · split at hrest
    · rename_i heq; cases heq
    · cases (ends_raise hrest).2.1
    · cases (ends_raise hrest).2.1
  obtain ⟨-, -, rfl⟩ := ends_ret hrest
  rcases (ends_command hstmt).2 with ⟨w, a, hm, -⟩ | ⟨-, e, he, -⟩
  swap
  · cases he
  obtain ⟨n, hn⟩ := Tx.run_ok.mp hm
  obtain ⟨e, σ₁, hupdate, hn⟩ := Tx.bind_ok.mp hn
  obtain ⟨t, ht, rfl, hfind, -⟩ := Model.updateOne_ok hupdate
  obtain ⟨venues, σ₂, hvenues, hn⟩ := Tx.bind_ok.mp hn
  obtain ⟨-, rfl⟩ := Tx.read_ok.mp hvenues
  obtain ⟨count, σ₃, hcodes, hn⟩ := Tx.bind_ok.mp hn
  obtain ⟨-, t', -, rfl⟩ := Model.updateMany_ok hcodes
  obtain ⟨-, hdb⟩ := Tx.pure_ok.mp hn
  cases hdb
  obtain ⟨hmem, hid⟩ := (Table.find_eq_some names_entertainer).mp hfind
  refine ⟨e, hmem, eq_of_beq hid, ?_⟩
  rw [Table.rows_update ht] at hmem
  obtain ⟨e₀, -, rfl⟩ := List.mem_map.mp hmem
  split
  · rfl
  · rename_i hne
    rw [if_neg hne] at hid
    exact absurd hid hne

/-! ### What is so along the session -/

lemma operation_update {dto : UpdateEntertainer} (h : route.operation = some (.updateEntertainer id dto)) :
    route = .updateEntertainer id (.valid dto) := by
  unfold Route.operation at h
  split at h <;> cases h
  rfl

def KeepsActive (e e' : Entertainer) : Prop := e'.isActive = e.isActive

lemma Inactive.rewritten {id' : Uuid} (h : Inactive id db) (hwrites : WritesEntertainer id' KeepsActive db db') :
    Inactive id db' := by
  obtain ⟨e, he, hid, hinactive⟩ := h
  obtain ⟨t, hrows, rfl⟩ := hwrites
  obtain ⟨e', he', rfl | ⟨hold, hnew, hsame⟩⟩ := Money.exists_of_forall₂ hrows.flip he
  · exact ⟨e', he', hid, hinactive⟩
  · exact ⟨e', he', hnew.trans (hold.symm.trans hid), hsame.trans hinactive⟩

lemma Inactive.same (h : Inactive id db) (hsame : db'.entertainers = db.entertainers) : Inactive id db' := by
  unfold Inactive
  rw [hsame]
  exact h

lemma Inactive.mapped {p : Entertainer → Bool} {f : Entertainer → Entertainer} (h : Inactive id db)
    (hrows : db'.entertainers.rows = db.entertainers.rows.map fun e => if p e then f e else e)
    (hid : ∀ e, (f e).id = e.id) (hf : ∀ e, e.id = id → p e = true → e.isActive = false → (f e).isActive = false) :
    Inactive id db' := by
  obtain ⟨e, he, heid, hinactive⟩ := h
  refine ⟨_, hrows ▸ List.mem_map_of_mem he, ?_, ?_⟩
  · split
    · exact (hid e).trans heid
    · exact heid
  · split
    · rename_i hp
      exact hf e heid hp hinactive
    · exact hinactive

/-- What a controller on somebody's onboarding, payouts or links comes to activates nobody. -/
lemma runs_keepsActive {entertainerId : Uuid}
    (hguarded : route.entertainerScoped = true ∨ route.requiredRoles = [.PLATFORM_ADMIN])
    (hparam : route.paramEntertainerId = some entertainerId) (hroute : dispatch config now s user route = some handler)
    (hruns : Runs s handler log res s') (h : Inactive id s.db) : Inactive id s'.db := by
  have hrewrites : ∀ {α : Type} {p : Prog App α} {view : α → Response} (id' : Uuid),
      (p.Each fun _ => WritesEntertainer id' KeepsActive) → Runs s (.service p view) log res s' →
      Inactive id s'.db := fun _ hp hruns => by
    obtain ⟨-, r, -, hends⟩ := runs_service hruns
    exact h.rewritten (ends_each WritesRow.refl
      (WritesRow.trans (fun _ _ _ => rfl) fun _ _ _ h h' => h'.trans h) hends hp)
  have halone : ∀ {α : Type} {p : Prog App α} {view : α → Response}, LeavesAlone registry p →
      Runs s (.service p view) log res s' → Inactive id s'.db := fun hp hruns => by
    obtain ⟨-, r, -, hends⟩ := runs_service hruns
    exact h.same (congrArg (·.2.1) (ends_spares hends hp))
  cases route with
  | kycBankDetails e body =>
    obtain ⟨dto, rfl, rfl⟩ := of_body hroute
    exact hrewrites e (submitBankDetails_rewrites fun _ _ _ _ _ => by
      unfold bankDetailsCaptured; split <;> rfl) hruns
  | kycResolve e =>
    obtain rfl := Option.some.inj hroute
    exact hrewrites e (resolveAccount_rewrites (fun _ _ _ => rfl) fun _ _ => rfl) hruns
  | kycConfirm e body =>
    obtain ⟨name, rfl, rfl⟩ := of_body hroute
    exact hrewrites e (confirmAccount_rewrites fun _ _ => rfl) hruns
  | kycVerifyIdentity e body =>
    obtain ⟨document, rfl, rfl⟩ := of_body hroute
    exact hrewrites e (verifyIdentity_rewrites fun _ _ _ _ => by
      unfold identityChecked; split <;> rfl) hruns
  | kycReview e body =>
    obtain ⟨review, rfl, rfl⟩ := of_body hroute
    exact hrewrites e (decideReview_rewrites fun decision _ _ _ => by cases decision <;> rfl) hruns
  | issueLoginLink e =>
    obtain rfl := Option.some.inj hroute
    exact halone issueLoginLink_alone hruns
  | kycStatus e =>
    obtain rfl := Option.some.inj hroute
    exact halone (alone_read fun found => by cases found <;> trivial) hruns
  | entertainerOverview _ | entertainerTransactions _ _ | entertainerPayouts _ _ =>
    obtain rfl := Option.some.inj hroute
    cases hruns
    exact h
  | _ => simp [Route.entertainerScoped, Route.requiredRoles, Route.paramEntertainerId] at hguarded hparam

/-- **One exchange**: nobody is activated but by an admin. -/
lemma inactive_next (hx : Exchanges config x) (h : Inactive id x.before.db) (hnot : ¬Reactivates id x) :
    Inactive id x.after.db := by
  have hhandled := hx
  rcases exchanges_called hx with ⟨-, hsame, -⟩ | ⟨user, res, -, hcalled, -, hmakes⟩
  · rwa [hsame]
  have hregistry : registry x.after.db = registry x.before.db → Inactive id x.after.db :=
    fun hsame => h.same (congrArg (·.2.1) hsame)
  have honboards : ∀ entertainerId,
      x.request.route.entertainerScoped = true ∨ x.request.route.requiredRoles = [.PLATFORM_ADMIN] →
      x.request.route.paramEntertainerId = some entertainerId → Inactive id x.after.db :=
    fun entertainerId hguarded hparam => by
      cases hhandled with
      | refused => exact h
      | turnedAway => exact h
      | invalid => exact h
      | handled _ hroute hruns => exact runs_keepsActive hguarded hparam hroute hruns h
  cases hmakes with
  | nothing hsame => exact hregistry hsame
  | loggedIn _ _ _ _ _ _ _ hsame => exact hregistry hsame
  | redeemed _ _ _ _ _ _ _ _ hsame => exact hregistry hsame
  | proposed _ _ _ _ _ _ _ _ _ _ hdb => exact h.same (by rw [hdb])
  | overridden _ _ _ _ _ hdb => exact h.same (by rw [hdb])
  | responded _ _ _ _ _ _ _ _ hdb => exact h.same (by rw [hdb])
  | venueCreated _ _ _ hdb => exact h.same (by rw [hdb])
  | venueWritten _ _ _ hwrites =>
    obtain ⟨t, -, hdb⟩ := hwrites
    exact h.same (by rw [hdb]; rfl)
  | confirmed entertainerId name hroute =>
    exact honboards entertainerId (.inl (by rw [hroute]; rfl)) (by rw [hroute]; rfl)
  | onboarded entertainerId hguarded hparam => exact honboards entertainerId hguarded hparam
  | operated op hroute heffect =>
    cases heffect with
    | nothing _ hsame => exact h.same (by rw [hsame])
    | created _ _ _ _ _ _ hentertainers => exact h.same hentertainers
    | deactivated _ _ _ hentertainers => exact h.same hentertainers
    | replaced _ _ _ _ _ _ hentertainers => exact h.same hentertainers
    | entered dto e _ hentertainers =>
      obtain ⟨e₀, he₀, hid⟩ := h
      exact ⟨e₀, hentertainers ▸ List.mem_append_left _ he₀, hid⟩
    | edited id' dto _ hentertainers =>
      refine h.mapped hentertainers (fun _ => rfl) fun e hid hedited hinactive => ?_
      obtain rfl : id' = id := (eq_of_beq hedited).symm.trans hid
      rcases hset : dto.isActive with _ | _ | _
      · simp [edited, hset, hinactive]
      · simp [edited, hset]
      · exact absurd ⟨dto, operation_update hroute, hset, res, hcalled⟩ hnot
    | retired id' _ hentertainers => exact h.mapped hentertainers (fun _ => rfl) fun _ _ _ _ => rfl
    | linked _ _ _ _ hentertainers => exact h.same hentertainers
    | unlinked _ _ _ hentertainers => exact h.same hentertainers

/-! ### From then on -/

/-- What came after an exchange of the session is a session of its own. -/
lemma session_since (h : Session config s₀ xs s) : ∀ past x rest, xs = past ++ x :: rest →
    Exchanges config x ∧ Session config x.after rest s := by
  induction h with
  | nil =>
    intro past x rest heq
    simp at heq
  | @snoc xs y _ hy ih =>
    intro past x rest heq
    rcases eq_of_snoc heq with ⟨rfl, rfl, rfl⟩ | ⟨rest', rfl, heq'⟩
    · exact ⟨hy, .nil⟩
    · obtain ⟨hx, hrest⟩ := ih past x rest' heq'
      exact ⟨hx, .snoc hrest hy⟩

lemma along_of_forall {C : Exchange → Prop} (h : ∀ x ∈ xs, C x) : Along (fun _ => C) xs :=
  fun past x _ heq => h x (heq ▸ List.mem_append_right past List.mem_cons_self)

lemma inactive_of_deactivates (hx : Exchanges config x) (h : Deactivates id x) : Inactive id x.after.db := by
  obtain ⟨hroute, hresponse⟩ := h
  obtain ⟨response, hresponse⟩ := Option.ne_none_iff_exists'.mp hresponse
  obtain ⟨a, -, hends⟩ := ends_of_route hx (fun _ _ _ => by rw [hroute]; rfl) hresponse
  exact deactivated_inactive hends

lemma shutsOut_exchange (hx : Exchanges config x) (h : Inactive id x.before.db) : ShutsOut config id x where
  bearer := refused_of_validate hx fun _ => validate_inactive h
  redeemed token opened hroute hresponse hid := by
    obtain ⟨e, he, heid, hactive⟩ := redeemed_active hx hroute hresponse
    rw [h.of_mem he (heid.trans hid)] at hactive
    cases hactive
  issued hroute := by
    by_contra hresponse
    obtain ⟨e, he, heid, hactive⟩ := issued_active hx hroute hresponse
    rw [h.of_mem he heid] at hactive
    cases hactive
  scanned token resolution hroute hresponse e hentertainer hid := by
    cases hx with
    | refused => cases hresponse
    | turnedAway => cases hresponse
    | invalid => cases hresponse
    | @handled r now s s' user handler log res _ hdispatch hruns =>
      rw [show r.route = _ from hroute] at hdispatch
      cases hdispatch
      cases hruns with
      | rolledBack => cases hresponse
      | committed _ hm =>
        cases hresponse
        obtain ⟨row, hrow, hrowid, hactive⟩ := resolveQrCode_active hm hentertainer
        rw [h.of_mem hrow (hrowid.trans hid)] at hactive
        cases hactive

lemma validateUser_inactive {account : User} {users : Table User} {dto : LoginDto} (hmem : account ∈ users.rows)
    (hinactive : account.isActive = false) (hemail : dto.email = account.email) :
    validateUser config users dto = .error invalidCredentials := by
  unfold validateUser
  rw [hemail, (Table.find_eq_some names_email).mpr ⟨hmem, beq_self_eq_true _⟩]
  simp [hinactive]

lemma shutsOutAccount_exchange {account : User} (hx : Exchanges config x) (hmem : account ∈ x.before.users.rows)
    (hinactive : account.isActive = false) : ShutsOutAccount config account x where
  bearer := refused_of_validate hx fun _ => validate_inactiveAccount hmem hinactive
  login dto hroute hemail := by
    cases hx with
    | refused => rfl
    | turnedAway => rfl
    | invalid => rfl
    | @handled r now s s' user handler log res _ hdispatch hruns =>
      rw [show r.route = _ from hroute] at hdispatch
      obtain rfl := Option.some.inj hdispatch
      have hrefused : validateUser config s.users dto = _ := validateUser_inactive hmem hinactive hemail
      simp only [hrefused] at hruns
      cases hruns
      rfl

/-- **Who is deactivated is locked out**, in every session, from the next request on. -/
theorem locked_out : LocksOut config s₀ where
  entertainers id xs s hsession past x rest heq hdeactivates hnone := by
    obtain ⟨hx, hrest⟩ := session_since hsession past x rest heq
    exact (session_along hrest (along_of_forall hnone) (I := fun _ s => Inactive id s.db)
      (inactive_of_deactivates hx hdeactivates) fun _ y hbefore hy hnot =>
        ⟨inactive_next hy hbefore hnot, shutsOut_exchange hy hbefore⟩).2
  accounts account hmem hinactive xs s hsession :=
    (session_along hsession (along_of_forall fun _ _ => trivial) (C := fun _ _ => True)
      (I := fun _ s => account ∈ s.users.rows) hmem fun _ x hbefore hx _ => by
        refine ⟨?_, shutsOutAccount_exchange hx hbefore hinactive⟩
        rcases exchanges_called hx with ⟨-, hsame, -⟩ | ⟨_, _, -, -, husers, -⟩
        · rwa [hsame]
        · rwa [husers]).2

end Splitcore.Http
