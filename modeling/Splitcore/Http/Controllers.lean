import Splitcore.Http.Effects

/-!
What a controller makes of the registry when it is called, once and for all routes.
-/

namespace Splitcore.Http

open Relational Interleaving Isolation Dashboard Onboarding SplitRules QrCodes

/-! ### Confirmations -/

/-- No account was confirmed that was not before. -/
def NoNewConfirmation (db db' : Db) : Prop :=
  ∀ e' ∈ db'.entertainers.rows, e'.accountConfirmedAt ≠ none →
    ∃ e ∈ db.entertainers.rows, e.id = e'.id ∧ e.accountConfirmedAt = e'.accountConfirmedAt

section NoNewConfirmation

variable {db db' : Db} {id : Uuid} {ds : List (Did App)}

lemma noNewConfirmation_same (h : db'.entertainers = db.entertainers) : NoNewConfirmation db db' := by
  intro e' he' _
  rw [h] at he'
  exact ⟨e', he', rfl, rfl⟩

lemma noNewConfirmation_writes (h : WritesEntertainer id ConfirmsNothing db db') : NoNewConfirmation db db' := by
  obtain ⟨t, hrows, rfl⟩ := h
  intro e' he' hconfirmed
  obtain ⟨e, he, rfl | ⟨hid, hid', hnone | hsame⟩⟩ := Money.exists_of_forall₂ hrows he'
  · exact ⟨_, he, rfl, rfl⟩
  · exact absurd hnone hconfirmed
  · exact ⟨e, he, hid.trans hid'.symm, hsame.symm⟩

lemma noNewConfirmation_map {f : Entertainer → Entertainer} {p : Entertainer → Bool}
    (h : db'.entertainers.rows = db.entertainers.rows.map fun e => if p e then f e else e)
    (hid : ∀ e, (f e).id = e.id) (hf : ∀ e, (f e).accountConfirmedAt = e.accountConfirmedAt) :
    NoNewConfirmation db db' := by
  intro e' he' _
  rw [h] at he'
  obtain ⟨e, he, rfl⟩ := List.mem_map.mp he'
  refine ⟨e, he, ?_⟩
  split
  · exact ⟨(hid e).symm, (hf e).symm⟩
  · exact ⟨rfl, rfl⟩

/-- A new entertainer has confirmed nothing. -/
lemma create_noNewConfirmation {dto : CreateEntertainer} {res : Except Err (Entertainer × List Uuid)}
    (h : Ends databaseFault (Onboarding.create dto) db ds res db') : NoNewConfirmation db db' := by
  rcases ends_caught h (fun _ => ⟨_, rfl⟩) (fun e => by cases e <;> exact ⟨_, rfl⟩) with rfl | ⟨w, e, hm⟩
  · exact noNewConfirmation_same rfl
  obtain ⟨n, hn⟩ := Tx.run_ok.mp hm
  obtain ⟨id, σ₁, hid, hn⟩ := Tx.bind_ok.mp hn
  obtain ⟨-, rfl⟩ := Tx.freshId_ok.mp hid
  obtain ⟨⟨⟩, σ₂, hcreate, hn⟩ := Tx.bind_ok.mp hn
  obtain ⟨t, ht, rfl⟩ := Model.create_ok hcreate
  obtain ⟨-, hs⟩ := Tx.pure_ok.mp hn
  cases hs
  intro e' he' hconfirmed
  rw [show (Model.entertainer.set db t).entertainers.rows = _ from Table.rows_insert ht, List.mem_append,
    List.mem_singleton] at he'
  rcases he' with hold | rfl
  · exact ⟨e', hold, rfl, rfl⟩
  · exact absurd rfl hconfirmed

/-- What an admin does to codes, entertainers and links confirms nothing. -/
lemma operation_noNewConfirmation {op : QrCodes.Operation} {res : Except Err Unit}
    (h : Ends databaseFault op.program db ds res db') : NoNewConfirmation db db' := by
  cases ends_effect h with
  | nothing _ hsame => exact noNewConfirmation_same (by rw [hsame])
  | created _ _ _ _ _ _ hentertainers _ => exact noNewConfirmation_same hentertainers
  | deactivated _ _ _ hentertainers _ => exact noNewConfirmation_same hentertainers
  | replaced _ _ _ _ _ _ hentertainers _ => exact noNewConfirmation_same hentertainers
  | entered dto _ _ _ _ =>
    obtain ⟨_, _, hcreate⟩ := ends_void h
    exact create_noNewConfirmation hcreate
  | edited id dto _ hentertainers _ => exact noNewConfirmation_map hentertainers (fun _ => rfl) fun _ => rfl
  | retired id _ hentertainers _ => exact noNewConfirmation_map hentertainers (fun _ => rfl) fun _ => rfl
  | linked _ _ _ _ hentertainers _ => exact noNewConfirmation_same hentertainers
  | unlinked _ _ _ hentertainers _ => exact noNewConfirmation_same hentertainers

end NoNewConfirmation

/-- Links that were added are of the venue. -/
def NewLinksOf (venueId : Uuid) (db db' : Db) : Prop :=
  ∃ links, db'.venueEntertainers.rows = db.venueEntertainers.rows ++ links ∧ ∀ link ∈ links, link.venueId = venueId

lemma linkToVenue_links {entertainerId venueId : Uuid} {db db' : Db} {ds : List (Did App)}
    {res : Except Err VenueEntertainer}
    (h : Ends databaseFault (Onboarding.linkToVenue entertainerId venueId) db ds res db') :
    NewLinksOf venueId db db' := by
  rcases ends_caught h (fun _ => ⟨_, rfl⟩) (fun e => by cases e <;> exact ⟨_, rfl⟩) with rfl | ⟨w, link, hm⟩
  · exact ⟨[], (List.append_nil _).symm, by simp⟩
  obtain ⟨n, hn⟩ := Tx.run_ok.mp hm
  obtain ⟨id, σ₁, hid, hn⟩ := Tx.bind_ok.mp hn
  obtain ⟨-, rfl⟩ := Tx.freshId_ok.mp hid
  obtain ⟨⟨⟩, σ₂, hcreate, hn⟩ := Tx.bind_ok.mp hn
  obtain ⟨t, ht, rfl⟩ := Model.create_ok hcreate
  obtain ⟨known, σ₃, hread, hn⟩ := Tx.bind_ok.mp hn
  obtain ⟨-, rfl⟩ := Tx.read_ok.mp hread
  split at hn
  · obtain ⟨-, hs⟩ := Tx.pure_ok.mp hn
    cases hs
    exact ⟨_, Table.rows_insert ht, by simp⟩
  · exact (Tx.throw_ok.mp hn).elim

/-! ### What a called controller does -/

/-- The response gives the client no session and no proposal to answer. -/
def Response.Plain (r : Response) : Prop := r.sessionToken = none ∧ r.consentToken = none

/-- What an admin asks to be done to codes, entertainers and links. -/
def Route.operation : Route → Option QrCodes.Operation
  | .createQrCode (.valid dto) => some (.createQrCode dto)
  | .deactivateQrCode id => some (.deactivateQrCode id)
  | .regenerateQrCode id => some (.regenerateQrCode id)
  | .createEntertainer (.valid dto) => some (.createEntertainer dto)
  | .updateEntertainer id (.valid dto) => some (.updateEntertainer id dto)
  | .deactivateEntertainer id => some (.deactivateEntertainer id)
  | .linkToVenue entertainerId venueId => some (.linkToVenue entertainerId venueId)
  | .unlinkFromVenue entertainerId venueId => some (.unlinkFromVenue entertainerId venueId)
  | _ => none

/-- What a call made of the registry, and what the response gives the client. -/
inductive Makes (config : Deployment) (s : Server) (route : Route) (log : List (Did App))
    (res : Except Err Response) (s' : Server) : Prop
  | nothing (hsame : registry s'.db = registry s.db) (hplain : ∀ r, res = .ok r → r.Plain)
  -- tokens
  | loggedIn (dto : LoginDto) (user : User) (token : String) (hroute : route = .login (.valid dto))
      (hres : res = .ok (.accessToken token)) (hvalid : validateUser config s.users dto = .ok user)
      (hsigned : .answered (.signAsync (userPayload user) config.jwtExpiresIn) (.ok token) ∈ log)
      (hsame : registry s'.db = registry s.db)
  | redeemed (token : String) (opened : EntertainerAuth.EntertainerSession) (row : EntertainerLoginToken)
      (hroute : route = .redeem (.valid token)) (hres : res = .ok (.session opened))
      (hrow : row ∈ s.db.loginTokens.rows) (hhash : row.tokenHash = config.hashToken token)
      (hopen : row.consumedAt = none) (hsame : registry s'.db = registry s.db)
  -- rules
  | proposed (dto : CreateSplitRuleDto) (rule : SplitRule) (token url : String) (t : Table SplitRule)
      (hroute : route = .propose (.valid dto)) (hres : res = .ok (.proposal (toResponse rule) token url))
      (hvenue : rule.venueId = dto.venueId) (hstatus : rule.status = OPEN_PROPOSAL)
      (htoken : rule.responseTokenHash = some (config.hashToken token))
      (hdb : s'.db = { s.db with splitRules := t }) (hadds : Adds dto.venueId rule s.db.splitRules t)
  | overridden (dto : OverrideSplitRuleDto) (rule : SplitRule) (t : Table SplitRule)
      (hroute : route = .override (.valid dto)) (horigin : rule.origin = .ADMIN_OVERRIDE)
      (hdb : s'.db = { s.db with splitRules := t }) (hadds : Adds dto.venueId rule s.db.splitRules t)
      (hplain : ∀ r, res = .ok r → r.Plain)
  | responded (token : String) (decision : Decision) (rule : SplitRule) (t : Table SplitRule)
      (hroute : route = .respond rule.id token (.valid decision)) (hrule : rule ∈ s.db.splitRules.rows)
      (hhash : rule.responseTokenHash = some (config.hashToken token)) (hopen : rule.status = OPEN_PROPOSAL)
      (hdb : s'.db = { s.db with splitRules := t })
      (hturned : Turned rule.venueId (decision = .ACCEPT) s.db.splitRules t) (hplain : ∀ r, res = .ok r → r.Plain)
  -- venues
  | venueCreated (dto : CreateVenueDto) (t : Table Venue) (hroute : route = .createVenue (.valid dto))
      (hdb : s'.db = { s.db with venues := t }) (hplain : ∀ r, res = .ok r → r.Plain)
  | venueWritten (venueId : Uuid) (hscoped : route.venueScoped = true) (hparam : route.paramVenueId = some venueId)
      (hwrites : WritesVenue venueId s.db s'.db) (hplain : ∀ r, res = .ok r → r.Plain)
  -- entertainers
  | confirmed (entertainerId : Uuid) (name : String) (hroute : route = .kycConfirm entertainerId (.valid name))
      (hwrites : WritesEntertainer entertainerId (fun _ _ => True) s.db s'.db)
      (hplain : ∀ r, res = .ok r → r.Plain)
  | onboarded (entertainerId : Uuid)
      (hguarded : route.entertainerScoped = true ∨ route.requiredRoles = [.PLATFORM_ADMIN])
      (hparam : route.paramEntertainerId = some entertainerId)
      (hwrites : WritesEntertainer entertainerId ConfirmsNothing s.db s'.db) (hplain : ∀ r, res = .ok r → r.Plain)
  | operated (op : QrCodes.Operation) (hroute : route.operation = some op) (heffect : Effect s.db s'.db op)
      (hsame : venuesAndRules s'.db = venuesAndRules s.db) (hconfirms : NoNewConfirmation s.db s'.db)
      (hlinks : ∀ entertainerId venueId, op = .linkToVenue entertainerId venueId → NewLinksOf venueId s.db s'.db)
      (hplain : ∀ r, res = .ok r → r.Plain)

section Makes

variable {config : Deployment} {s s' : Server} {route : Route} {log : List (Did App)} {res : Except Err Response}
  {handler : Handler} {α : Type}

lemma plain_map {e : Except Err α} {view : α → Response} (hview : ∀ a, (view a).Plain) (r : Response)
    (h : e.map view = .ok r) : r.Plain := by
  rcases e with e | a
  · cases h
  · cases h
    exact hview a

/-- What a program made of the database, by what it made of it. -/
lemma runs_service {p : Prog App α} {view : α → Response} (hruns : Runs s (.service p view) log res s') :
    s'.users = s.users ∧ ∃ r, res = r.map view ∧ Ends databaseFault p s.db log r s'.db := by
  cases hruns with
  | service view h => exact ⟨rfl, _, rfl, h⟩

lemma makes_answer {answer : Except Err Response} (hplain : ∀ r, answer = .ok r → r.Plain)
    (hruns : Runs s (.answer answer) log res s') : s'.users = s.users ∧ Makes config s route log res s' := by
  cases hruns with
  | answer => exact ⟨rfl, .nothing rfl hplain⟩

lemma makes_alone {p : Prog App α} {view : α → Response} (hp : LeavesAlone registry p)
    (hview : ∀ a, (view a).Plain) (hruns : Runs s (.service p view) log res s') :
    s'.users = s.users ∧ Makes config s route log res s' := by
  obtain ⟨husers, r, rfl, h⟩ := runs_service hruns
  exact ⟨husers, .nothing (ends_spares h hp) (plain_map hview)⟩

lemma makes_venue {p : Prog App α} {view : α → Response} {venueId : Uuid} (hscoped : route.venueScoped = true)
    (hparam : route.paramVenueId = some venueId) (hp : p.Each fun _ => WritesVenue venueId)
    (hview : ∀ a, (view a).Plain) (hruns : Runs s (.service p view) log res s') :
    s'.users = s.users ∧ Makes config s route log res s' := by
  obtain ⟨husers, r, rfl, h⟩ := runs_service hruns
  have hwrites := ends_each WritesRow.refl (WritesRow.trans (fun _ _ _ => rfl) fun _ _ _ _ _ => trivial) h hp
  exact ⟨husers, .venueWritten venueId hscoped hparam hwrites (plain_map hview)⟩

lemma makes_entertainer {p : Prog App α} {view : α → Response} {entertainerId : Uuid}
    (hguarded : route.entertainerScoped = true ∨ route.requiredRoles = [.PLATFORM_ADMIN])
    (hparam : route.paramEntertainerId = some entertainerId)
    (hp : p.Each fun _ => WritesEntertainer entertainerId ConfirmsNothing)
    (hview : ∀ a, (view a).Plain) (hruns : Runs s (.service p view) log res s') :
    s'.users = s.users ∧ Makes config s route log res s' := by
  obtain ⟨husers, r, rfl, h⟩ := runs_service hruns
  have hwrites := ends_each WritesRow.refl (WritesRow.trans (fun _ _ _ => rfl) ConfirmsNothing.trans) h hp
  exact ⟨husers, .onboarded entertainerId hguarded hparam hwrites (plain_map hview)⟩

lemma makes_operation {p : Prog App α} {view : α → Response} (op : QrCodes.Operation)
    (hroute : route.operation = some op)
    (hop : ∀ {r : Except Err α}, Ends databaseFault p s.db log r s'.db →
      ∃ r', Ends databaseFault op.program s.db log r' s'.db)
    (hview : ∀ a, (view a).Plain) (hruns : Runs s (.service p view) log res s') :
    s'.users = s.users ∧ Makes config s route log res s' := by
  obtain ⟨husers, r, rfl, h⟩ := runs_service hruns
  obtain ⟨r', h'⟩ := hop h
  refine ⟨husers, .operated op hroute (ends_effect h') (ends_spares h' (operation_alone op))
    (operation_noNewConfirmation h') (fun entertainerId venueId heq => ?_) (plain_map hview)⟩
  subst heq
  obtain ⟨_, _, hlink⟩ := ends_void h'
  exact linkToVenue_links hlink

/-- A transaction that rewrites a venue, whatever it makes of errors. -/
lemma makes_venueTx {m : Tx Venue} {e : Err → Err} {view : Venue → Response} {venueId : Uuid}
    {f : Venue → Venue} (hscoped : route.venueScoped = true) (hparam : route.paramVenueId = some venueId)
    (hm : m = Tx.mapError e (VenueAccount.updateVenue venueId f)) (hid : ∀ v, (f v).id = v.id)
    (hview : ∀ a, (view a).Plain) (hruns : Runs s (.transaction m view) log res s') :
    s'.users = s.users ∧ Makes config s route log res s' := by
  subst hm
  cases hruns with
  | committed view h =>
    obtain ⟨n, hn⟩ := Tx.run_ok.mp h
    have hupdate := Tx.run_ok.mpr ⟨n, Tx.mapError_ok.mp hn⟩
    refine ⟨rfl, .venueWritten venueId hscoped hparam (updateOne_writes hid (fun _ => trivial) hupdate) ?_⟩
    rintro r ⟨⟩
    exact hview _
  | rolledBack => exact ⟨rfl, .nothing rfl fun r h => by cases h⟩

/-- The rest of the database is as it was, and the answer is made of that of the call. -/
lemma runs_rules {c : Call Rules α} {view : α → Response} (hruns : Runs s (.rules c view) log res s') :
    s'.users = s.users ∧ ((∃ e, res = .error e ∧ s' = s) ∨
      ∃ a rules, res = .ok (view a) ∧ s'.db = { s.db with splitRules := rules.table } ∧
        Alone rulesFault c s.rules (.ok a) rules) := by
  cases hruns with
  | @rules _ _ r rules view h =>
    refine ⟨rfl, ?_⟩
    rcases r with e | a
    · obtain rfl := h.error
      exact .inl ⟨e, rfl, rfl⟩
    · exact .inr ⟨a, rules, rfl, rfl, h.ok⟩

lemma of_dto {body : Body α} {dto : α} (h : body.dto = some dto) : body = .valid dto := by
  cases body with
  | valid dto => exact congrArg Body.valid (Option.some.inj h)
  | invalid venueId => cases h

lemma of_body {body : Body α} {f : α → Handler} (h : body.dto.map f = some handler) :
    ∃ dto, body = .valid dto ∧ f dto = handler := by
  obtain ⟨dto, hdto, hf⟩ := Option.map_eq_some_iff.mp h
  exact ⟨dto, of_dto hdto, hf⟩

/-- A session is opened by the token of a link that is still open. -/
lemma redeem_open {hashToken : String → String} {token : String} {opened : EntertainerAuth.EntertainerSession}
    {db db' : Db} (h : Ends databaseFault (EntertainerAuth.redeem hashToken token) db log (.ok opened) db') :
    ∃ row ∈ db.loginTokens.rows, row.tokenHash = hashToken token ∧ row.consumedAt = none := by
  rcases ends_bind h with ⟨e, he, -⟩ | ⟨found, _, _, db₁, -, hfind, hrest⟩
  · cases he
  obtain ⟨rfl, -, hres | ⟨e, -, he⟩⟩ := ends_query hfind
  swap
  · cases he
  obtain rfl : found = EntertainerAuth.tokenWithEntertainer (hashToken token) db₁ := Except.ok.inj hres
  rcases hfound : EntertainerAuth.tokenWithEntertainer (hashToken token) db₁ with _ | ⟨candidate, entertainer⟩ <;>
    rw [hfound] at hrest
  · cases (ends_raise hrest).2.1
  dsimp only at hrest
  split at hrest
  · cases (ends_raise hrest).2.1
  rename_i hhash
  split at hrest
  · cases (ends_raise hrest).2.1
  rename_i hopen
  obtain ⟨row, hrow, hpair⟩ := Option.bind_eq_some_iff.mp hfound
  obtain ⟨e, -, hpair⟩ := Option.bind_eq_some_iff.mp hpair
  cases hpair
  exact ⟨candidate, Table.mem_of_find hrow, (not_not.mp hhash).symm, by simpa using hopen⟩

lemma makes_login {dto : LoginDto} {user : User} (hvalid : validateUser config s.users dto = .ok user)
    (hruns : Runs s (.service (request (.signAsync (userPayload user) config.jwtExpiresIn)) .accessToken) log res s') :
    s'.users = s.users ∧ Makes config s (.login (.valid dto)) log res s' := by
  obtain ⟨husers, r, rfl, h⟩ := runs_service hruns
  obtain ⟨hdb, rfl⟩ := ends_request h
  refine ⟨husers, ?_⟩
  rcases r with e | token
  · exact .nothing (by rw [hdb]) fun r h => by cases h
  · exact .loggedIn dto user token rfl rfl hvalid (.tail _ (.head _)) (by rw [hdb])

lemma makes_redeem {token : String}
    (hruns : Runs s (.service (EntertainerAuth.redeem config.hashToken token) .session) log res s') :
    s'.users = s.users ∧ Makes config s (.redeem (.valid token)) log res s' := by
  obtain ⟨husers, r, rfl, h⟩ := runs_service hruns
  have hsame : registry s'.db = registry s.db := ends_spares h redeem_alone
  refine ⟨husers, ?_⟩
  rcases r with e | opened
  · exact .nothing hsame fun r h => by cases h
  · obtain ⟨row, hrow, hhash, hopen⟩ := redeem_open h
    exact .redeemed token opened row rfl rfl hrow hhash hopen hsame

lemma makes_propose {dto : CreateSplitRuleDto} {user : Uuid}
    (hruns : Runs s (.rules (propose config.hashToken dto user) fun p =>
      .proposal (toResponse p.rule) p.consentToken (buildConsentUrl config p.rule.id p.consentToken)) log res s') :
    s'.users = s.users ∧ Makes config s (.propose (.valid dto)) log res s' := by
  obtain ⟨husers, ⟨e, rfl, rfl⟩ | ⟨p, rules, rfl, hdb, h⟩⟩ := runs_rules hruns
  · exact ⟨husers, .nothing rfl fun r h => by cases h⟩
  · obtain ⟨⟨bps, w, hrule⟩, hadds, -⟩ := propose_alone h
    exact ⟨husers, .proposed dto p.rule p.consentToken _ _ rfl rfl (by rw [hrule]; rfl) (by rw [hrule]; rfl)
      (by rw [hrule]; rfl) hdb hadds⟩

lemma makes_override {dto : OverrideSplitRuleDto} {user : Uuid}
    (hruns : Runs s (.rules (forceSet dto user) fun rule => .splitRule (toResponse rule)) log res s') :
    s'.users = s.users ∧ Makes config s (.override (.valid dto)) log res s' := by
  obtain ⟨husers, ⟨e, rfl, rfl⟩ | ⟨rule, rules, rfl, hdb, h⟩⟩ := runs_rules hruns
  · exact ⟨husers, .nothing rfl fun r h => by cases h⟩
  · obtain ⟨-, horigin, -, hadds, -⟩ := forceSet_alone h
    exact ⟨husers, .overridden dto rule _ rfl horigin hdb hadds fun r h => by cases h; exact ⟨rfl, rfl⟩⟩

lemma makes_getTerms {id : Uuid} {token : String}
    (hruns : Runs s (.rules (findByConsentToken config.hashToken id token) fun rule => .terms (termsOf s rule)) log
      res s') : s'.users = s.users ∧ Makes config s route log res s' := by
  obtain ⟨husers, ⟨e, rfl, rfl⟩ | ⟨rule, rules, rfl, hdb, h⟩⟩ := runs_rules hruns
  · exact ⟨husers, .nothing rfl fun r h => by cases h⟩
  · obtain ⟨rfl, -⟩ := findByConsentToken_alone h
    exact ⟨husers, .nothing (by rw [hdb]; rfl) fun r h => by cases h; exact ⟨rfl, rfl⟩⟩

lemma makes_respond {id : Uuid} {token : String} {decision : Decision}
    (hruns : Runs s (.rules (respond config.hashToken id token decision) fun rule => .splitRule (toResponse rule)) log
      res s') : s'.users = s.users ∧ Makes config s (.respond id token (.valid decision)) log res s' := by
  obtain ⟨husers, ⟨e, rfl, rfl⟩ | ⟨updated, rules, rfl, hdb, h⟩⟩ := runs_rules hruns
  · exact ⟨husers, .nothing rfl fun r h => by cases h⟩
  · obtain ⟨rule, hrule, rfl, hhash, hopen, hturned, -⟩ := respond_alone h
    exact ⟨husers, .responded token decision rule _ rfl hrule hhash hopen hdb hturned
      fun r h => by cases h; exact ⟨rfl, rfl⟩⟩

lemma makes_createVenue {dto : CreateVenueDto}
    (hruns : Runs s (.transaction (VenuesService.create dto) .venue) log res s') :
    s'.users = s.users ∧ Makes config s (.createVenue (.valid dto)) log res s' := by
  cases hruns with
  | committed view h =>
    obtain ⟨n, hn⟩ := Tx.run_ok.mp h
    obtain ⟨id, σ₁, hid, hn⟩ := Tx.bind_ok.mp (Tx.mapError_ok.mp hn)
    obtain ⟨-, rfl⟩ := Tx.freshId_ok.mp hid
    obtain ⟨⟨⟩, σ₂, hcreate, hn⟩ := Tx.bind_ok.mp hn
    obtain ⟨t, -, rfl⟩ := Model.create_ok hcreate
    obtain ⟨-, hs⟩ := Tx.pure_ok.mp hn
    cases hs
    exact ⟨rfl, .venueCreated dto t rfl rfl fun r h => by cases h; exact ⟨rfl, rfl⟩⟩
  | rolledBack => exact ⟨rfl, .nothing rfl fun r h => by cases h⟩

lemma makes_resolveQrCode {publicToken : String}
    (hruns : Runs s (.transaction (Http.resolveQrCode publicToken) .resolution) log res s') :
    s'.users = s.users ∧ Makes config s route log res s' := by
  cases hruns with
  | committed view h =>
    have hleaves : (Http.resolveQrCode publicToken).Leaves registry := by
      refine Tx.leaves_bind Tx.leaves_read fun found => ?_
      split
      · exact Tx.leaves_throw
      refine Tx.leaves_bind Tx.leaves_read fun venue => Tx.leaves_bind Tx.leaves_read fun entertainer => ?_
      split
      · exact Tx.leaves_throw
      split
      · exact Tx.leaves_throw
      split
      · exact Tx.leaves_throw
      split
      · exact Tx.leaves_throw
      refine Tx.leaves_now fun now => Tx.leaves_bind Tx.leaves_freshId fun id => ?_
      exact Tx.leaves_bind (Model.create_leaves fun _ _ => rfl) fun _ => Tx.leaves_pure
    exact ⟨rfl, .nothing (hleaves.run h) fun r h => by cases h; exact ⟨rfl, rfl⟩⟩
  | rolledBack => exact ⟨rfl, .nothing rfl fun r h => by cases h⟩

/-- **What a called controller makes of the registry**, for every route. -/
theorem makes {now : Time} {user : Option RequestUser} (hroute : dispatch config now s user route = some handler)
    (hruns : Runs s handler log res s') : s'.users = s.users ∧ Makes config s route log res s' := by
  cases route with
  -- AuthController, EntertainerAuthController
  | login body =>
    obtain ⟨dto, rfl, rfl⟩ := of_body hroute
    rcases hvalid : validateUser config s.users dto with e | found <;> rw [hvalid] at hruns
    · exact makes_answer (fun r h => by cases h) hruns
    · exact makes_login hvalid hruns
  | issueLoginLink entertainerId =>
    obtain rfl := Option.some.inj hroute
    exact makes_alone issueLoginLink_alone (fun _ => ⟨rfl, rfl⟩) hruns
  | redeem body =>
    obtain ⟨token, rfl, rfl⟩ := of_body hroute
    exact makes_redeem hruns
  -- SplitRulesController
  | propose body =>
    obtain ⟨dto, hbody, hroute⟩ := Option.bind_eq_some_iff.mp hroute
    obtain ⟨user, rfl, rfl⟩ := Option.map_eq_some_iff.mp hroute
    obtain rfl := of_dto hbody
    exact makes_propose hruns
  | override body =>
    obtain ⟨dto, hbody, hroute⟩ := Option.bind_eq_some_iff.mp hroute
    obtain ⟨user, rfl, rfl⟩ := Option.map_eq_some_iff.mp hroute
    obtain rfl := of_dto hbody
    exact makes_override hruns
  | getTerms id token =>
    obtain rfl := Option.some.inj hroute
    exact makes_getTerms hruns
  | respond id token body =>
    obtain ⟨decision, rfl, rfl⟩ := of_body hroute
    exact makes_respond hruns
  | findActiveByVenue venueId =>
    obtain rfl := Option.some.inj hroute
    exact makes_alone findActiveByVenue_alone (fun _ => ⟨rfl, rfl⟩) hruns
  -- VenuesController, VenuePayoutAccountController
  | createVenue body =>
    obtain ⟨dto, rfl, rfl⟩ := of_body hroute
    exact makes_createVenue hruns
  | updateVenue venueId body =>
    obtain ⟨dto, rfl, rfl⟩ := of_body hroute
    exact makes_venueTx (f := VenuesService.edited dto) rfl rfl rfl (fun _ => rfl) (fun _ => ⟨rfl, rfl⟩) hruns
  | deactivateVenue venueId =>
    obtain rfl := Option.some.inj hroute
    exact makes_venueTx (f := fun v => { v with isActive := false }) rfl rfl rfl (fun _ => rfl)
      (fun _ => ⟨rfl, rfl⟩) hruns
  | payoutAccountStatus venueId =>
    obtain rfl := Option.some.inj hroute
    refine makes_alone (alone_read fun found => ?_) (fun _ => ⟨rfl, rfl⟩) hruns
    cases found <;> trivial
  | payoutAccountBankDetails venueId body =>
    obtain ⟨dto, rfl, rfl⟩ := of_body hroute
    exact makes_venue rfl rfl submitVenueBankDetails_writes (fun _ => ⟨rfl, rfl⟩) hruns
  | payoutAccountResolve venueId =>
    obtain rfl := Option.some.inj hroute
    exact makes_venue rfl rfl resolveVenueAccount_writes (fun _ => ⟨rfl, rfl⟩) hruns
  | payoutAccountConfirm venueId body =>
    obtain ⟨name, rfl, rfl⟩ := of_body hroute
    exact makes_venue rfl rfl confirmVenueAccount_writes (fun _ => ⟨rfl, rfl⟩) hruns
  -- EntertainersController
  | createEntertainer body =>
    obtain ⟨dto, rfl, rfl⟩ := of_body hroute
    exact makes_operation (.createEntertainer dto) rfl (fun h => ⟨_, ends_map (fun _ => ()) h⟩)
      (fun _ => ⟨rfl, rfl⟩) hruns
  | updateEntertainer entertainerId body =>
    obtain ⟨dto, rfl, rfl⟩ := of_body hroute
    exact makes_operation (.updateEntertainer entertainerId dto) rfl (fun h => ⟨_, ends_map (fun _ => ()) h⟩)
      (fun _ => ⟨rfl, rfl⟩) hruns
  | deactivateEntertainer entertainerId =>
    obtain rfl := Option.some.inj hroute
    exact makes_operation (.deactivateEntertainer entertainerId) rfl (fun h => ⟨_, ends_map (fun _ => ()) h⟩)
      (fun _ => ⟨rfl, rfl⟩) hruns
  | linkToVenue entertainerId venueId =>
    obtain rfl := Option.some.inj hroute
    exact makes_operation (.linkToVenue entertainerId venueId) rfl (fun h => ⟨_, ends_map (fun _ => ()) h⟩)
      (fun _ => ⟨rfl, rfl⟩) hruns
  | unlinkFromVenue entertainerId venueId =>
    obtain rfl := Option.some.inj hroute
    exact makes_operation (.unlinkFromVenue entertainerId venueId) rfl (fun h => ⟨_, h⟩)
      (fun _ => ⟨rfl, rfl⟩) hruns
  -- KycController
  | kycStatus entertainerId =>
    obtain rfl := Option.some.inj hroute
    refine makes_alone (alone_read fun found => ?_) (fun _ => ⟨rfl, rfl⟩) hruns
    cases found <;> trivial
  | kycBankDetails entertainerId body =>
    obtain ⟨dto, rfl, rfl⟩ := of_body hroute
    exact makes_entertainer (.inl rfl) rfl submitBankDetails_writes (fun _ => ⟨rfl, rfl⟩) hruns
  | kycResolve entertainerId =>
    obtain rfl := Option.some.inj hroute
    exact makes_entertainer (.inl rfl) rfl resolveAccount_writes (fun _ => ⟨rfl, rfl⟩) hruns
  | kycConfirm entertainerId body =>
    obtain ⟨name, rfl, rfl⟩ := of_body hroute
    obtain ⟨husers, r, rfl, h⟩ := runs_service hruns
    have hwrites := ends_each WritesRow.refl (WritesRow.trans (fun _ _ _ => rfl) fun _ _ _ _ _ => trivial) h
      confirmAccount_writes
    exact ⟨husers, .confirmed entertainerId name rfl hwrites (plain_map fun _ => ⟨rfl, rfl⟩)⟩
  | kycVerifyIdentity entertainerId body =>
    obtain ⟨document, rfl, rfl⟩ := of_body hroute
    exact makes_entertainer (.inl rfl) rfl verifyIdentity_writes (fun _ => ⟨rfl, rfl⟩) hruns
  | kycReview entertainerId body =>
    obtain ⟨review, rfl, rfl⟩ := of_body hroute
    exact makes_entertainer (.inr rfl) rfl decideReview_writes (fun _ => ⟨rfl, rfl⟩) hruns
  -- QrCodesController
  | createQrCode body =>
    obtain ⟨dto, rfl, rfl⟩ := of_body hroute
    exact makes_operation (.createQrCode dto) rfl (fun h => ⟨_, ends_map (fun _ => ()) h⟩)
      (fun _ => ⟨rfl, rfl⟩) hruns
  | deactivateQrCode qrCodeId =>
    obtain rfl := Option.some.inj hroute
    exact makes_operation (.deactivateQrCode qrCodeId) rfl (fun h => ⟨_, ends_map (fun _ => ()) h⟩)
      (fun _ => ⟨rfl, rfl⟩) hruns
  | regenerateQrCode qrCodeId =>
    obtain rfl := Option.some.inj hroute
    exact makes_operation (.regenerateQrCode qrCodeId) rfl (fun h => ⟨_, ends_map (fun _ => ()) h⟩)
      (fun _ => ⟨rfl, rfl⟩) hruns
  -- GuestController, PaymentsController, WebhooksController
  | resolveQrCode publicToken =>
    obtain rfl := Option.some.inj hroute
    exact makes_resolveQrCode hruns
  | initializePayment body =>
    obtain ⟨dto, rfl, rfl⟩ := of_body hroute
    exact makes_alone initializePayment_alone (fun _ => ⟨rfl, rfl⟩) hruns
  | getPaymentStatus reference =>
    obtain rfl := Option.some.inj hroute
    exact makes_alone getPaymentStatus_alone (fun _ => ⟨rfl, rfl⟩) hruns
  | paymentCallback reference =>
    cases reference with
    | none =>
      obtain rfl := Option.some.inj hroute
      exact makes_answer (fun r h => by cases h; exact ⟨rfl, rfl⟩) hruns
    | some reference =>
      obtain rfl := Option.some.inj hroute
      exact makes_alone callbackPayment_alone (fun _ => ⟨rfl, rfl⟩) hruns
  | handlePaystackWebhook delivery =>
    obtain rfl := Option.some.inj hroute
    exact makes_alone ingest_alone (fun _ => ⟨rfl, rfl⟩) hruns
  -- PlatformSettingsController, BanksController
  | getSettings =>
    obtain rfl := Option.some.inj hroute
    cases hruns
    exact ⟨rfl, .nothing rfl fun r h => by cases h; exact ⟨rfl, rfl⟩⟩
  | updateSettings body =>
    obtain ⟨platformFeeBps, rfl, rfl⟩ := of_body hroute
    cases hruns
    exact ⟨rfl, .nothing rfl fun r h => by cases h; exact ⟨rfl, rfl⟩⟩
  | listBanks =>
    obtain rfl := Option.some.inj hroute
    exact makes_alone (Prog.spares_request trivial) (fun _ => ⟨rfl, rfl⟩) hruns
  -- what is only read
  | findAllVenues | findAllEntertainers | findAllQrCodes =>
    obtain ⟨user, rfl, rfl⟩ := Option.map_eq_some_iff.mp hroute
    exact makes_answer (fun r h => by cases h; exact ⟨rfl, rfl⟩) hruns
  | findVenue _ | venueOverview _ | entertainerOverview _ | findEntertainer _ | findQrCode _ =>
    obtain rfl := Option.some.inj hroute
    exact makes_answer (plain_map fun _ => ⟨rfl, rfl⟩) hruns
  | findAllByVenue _ | findAuditTrail _ | entertainerEarnings _ | venueTransactions _ _ | venuePayouts _ _
  | venueOwnPayouts _ _ | entertainerTransactions _ _ | entertainerPayouts _ _ | health =>
    obtain rfl := Option.some.inj hroute
    exact makes_answer (fun r h => by cases h; exact ⟨rfl, rfl⟩) hruns

end Makes

end Splitcore.Http
