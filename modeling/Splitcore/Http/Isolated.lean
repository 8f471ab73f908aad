import Splitcore.Http.Actors

/-!
What the admin of a venue can change: what is of the venue, and the entertainers linked to it, as long as
the routes that ask for neither are used for these.
-/

namespace Splitcore.Http

open Relational Interleaving Onboarding SplitRules QrCodes

variable {config : Deployment} {userId venueId : Uuid} {found : User} {past : List Exchange} {x : Exchange}
  {s s₀ : Server} {db db' : Db} {op : QrCodes.Operation} {route : Route}

/-! ### What is not of the venue -/

/-- The rows of other venues are the same, and every entertainer that is not linked to the venue is as it
was. -/
structure Kept (venueId : Uuid) (db db' : Db) : Prop where
  venues : db'.venues.rows.filter (·.id != venueId) = db.venues.rows.filter (·.id != venueId)
  qrCodes : db'.qrCodes.rows.filter (·.venueId != venueId) = db.qrCodes.rows.filter (·.venueId != venueId)
  links : db'.venueEntertainers.rows.filter (·.venueId != venueId) =
    db.venueEntertainers.rows.filter (·.venueId != venueId)
  splitRules : db'.splitRules.rows.filter (·.venueId != venueId) = db.splitRules.rows.filter (·.venueId != venueId)
  entertainers : ∀ e ∈ db.entertainers.rows, ¬Linked db venueId e.id → e ∈ db'.entertainers.rows

/-- What an admin asks to be done concerns the venue, or somebody linked to it; whoever is deactivated takes
along no active code of another venue. -/
def Owns (venueId : Uuid) (db : Db) : QrCodes.Operation → Prop
  | .createQrCode dto => dto.venueId = venueId
  | .deactivateQrCode id | .regenerateQrCode id => ∀ qrCode ∈ db.qrCodes.rows, qrCode.id = id → qrCode.venueId = venueId
  | .createEntertainer _ => True
  | .updateEntertainer id _ => ∀ e ∈ db.entertainers.rows, e.id = id → Linked db venueId id
  | .deactivateEntertainer id => (∀ e ∈ db.entertainers.rows, e.id = id → Linked db venueId id) ∧
      ∀ qrCode ∈ db.qrCodes.rows, qrCode.entertainerId = some id → qrCode.isActive = true →
        qrCode.venueId = venueId
  | .linkToVenue _ v | .unlinkFromVenue _ v => v = venueId

/-- The request is to create or change something of another venue, or an entertainer that is not linked to
the venue. -/
def Foreign (venueId : Uuid) (db : Db) (route : Route) : Prop :=
  match route.operation with
  | some op => ¬Owns venueId db op
  | none => match route with
    | .createVenue _ => True
    | .updateVenue v _ | .deactivateVenue v | .payoutAccountBankDetails v _ | .payoutAccountResolve v
    | .payoutAccountConfirm v _ => v ≠ venueId
    | .propose (.valid dto) => dto.venueId ≠ venueId
    | .override (.valid dto) => dto.venueId ≠ venueId
    | .respond id _ _ => ∃ rule ∈ db.splitRules.rows, rule.id = id ∧ rule.venueId ≠ venueId
    | .kycBankDetails e _ | .kycResolve e | .kycConfirm e _ | .kycVerifyIdentity e _ | .kycReview e _ =>
      ¬Linked db venueId e
    | _ => False

/-- The routes that only ask for a role. -/
def Route.unscoped : Route → Bool
  | .updateEntertainer _ _ | .deactivateEntertainer _ | .deactivateQrCode _ | .regenerateQrCode _ => true
  | _ => false

/-! ### What the sessions of the admin are to keep to -/

/-- The request is made with the account's own credential, and an answer with the token of a proposal of the
venue, or with one that was returned. -/
structure Bears (config : Deployment) (userId venueId : Uuid) (past : List Exchange) (x : Exchange) : Prop where
  bearer : ∀ token payload, x.request.bearer = some token → config.verifyJwt x.now token = some payload →
    payload.role ≠ .ENTERTAINER ∧ payload.sub = userId
  consentToken : ∀ id token decision, x.request.route = .respond id token decision →
    ∀ rule ∈ x.before.db.splitRules.rows, rule.responseTokenHash = some (config.hashToken token) →
      rule.venueId = venueId ∨ Returned Response.consentToken past token

/-- Nothing of others was created or changed, and a request to do so was rejected. -/
structure StaysIn (venueId : Uuid) (x : Exchange) : Prop where
  kept : Kept venueId x.before.db x.after.db
  rejected : Foreign venueId x.before.db x.request.route → x.Rejected

/-- The routes that only ask for a role are used for what is of the venue. -/
def KeepsToOwn (venueId : Uuid) (x : Exchange) : Prop :=
  x.request.route.unscoped = true → ¬Foreign venueId x.before.db x.request.route

/-- In all sessions of the admin of the venue whose requests are `ok`, nothing of others is written. -/
def WritesAreIsolated (config : Deployment) (userId venueId : Uuid) (ok : Exchange → Prop) (s₀ : Server) : Prop :=
  ∀ xs s, Session config s₀ xs s →
    Along (fun past x => Bears config userId venueId past x ∧ ok x) xs → ∀ x ∈ xs, StaysIn venueId x

/-! ### What is kept -/

section Kept

/-- Each row that was changed is not among those looked at. -/
lemma filter_of_forall₂ {α : Type} {R : α → α → Prop} {p : α → Bool} {rows rows' : List α}
    (h : List.Forall₂ R rows rows') (hR : ∀ r r', R r r' → r' = r ∨ p r = false ∧ p r' = false) :
    rows'.filter p = rows.filter p := by
  induction h with
  | nil => rfl
  | cons hr _ ih =>
    rw [List.filter_cons, List.filter_cons, ih]
    rcases hR _ _ hr with rfl | ⟨hp, hp'⟩
    · rfl
    · simp [hp, hp']

lemma filter_of_map {α : Type} {p : α → Bool} {f : α → α} {rows : List α}
    (h : ∀ r ∈ rows, f r = r ∨ p r = false ∧ p (f r) = false) : (rows.map f).filter p = rows.filter p := by
  refine filter_of_forall₂ (R := fun r r' => r' = r ∨ p r = false ∧ p r' = false) ?_ fun _ _ h => h
  rw [List.forall₂_map_right_iff, List.forall₂_same]
  exact h

lemma filter_of_append {α : Type} {p : α → Bool} {rows new : List α} (h : ∀ r ∈ new, p r = false) :
    (rows ++ new).filter p = rows.filter p := by
  rw [List.filter_append, show new.filter p = [] from List.filter_eq_nil_iff.mpr fun r hr => by simp [h r hr],
    List.append_nil]

lemma kept_same (h : registry db' = registry db) : Kept venueId db db' := by
  obtain ⟨hvenues, hrest⟩ := Prod.mk.inj h
  obtain ⟨hentertainers, hrest⟩ := Prod.mk.inj hrest
  obtain ⟨hlinks, hrest⟩ := Prod.mk.inj hrest
  obtain ⟨hcodes, hrules⟩ := Prod.mk.inj hrest
  refine ⟨by rw [hvenues], by rw [hcodes], by rw [hlinks], by rw [hrules], fun e he _ => ?_⟩
  rw [hentertainers]
  exact he

lemma kept_venue (h : WritesVenue venueId db db') : Kept venueId db db' := by
  obtain ⟨t, hrows, rfl⟩ := h
  refine ⟨filter_of_forall₂ hrows fun r r' hr => ?_, rfl, rfl, rfl, fun e he _ => he⟩
  rcases hr with heq | ⟨hid, hid', -⟩
  · exact .inl heq
  · exact .inr ⟨by simp [hid], by simp [hid']⟩

lemma kept_entertainer {id : Uuid} {R : Entertainer → Entertainer → Prop} (h : WritesEntertainer id R db db')
    (hlinked : Linked db venueId id) : Kept venueId db db' := by
  obtain ⟨t, hrows, rfl⟩ := h
  refine ⟨rfl, rfl, rfl, rfl, fun e he hnot => ?_⟩
  obtain ⟨e', he', rfl | ⟨hid, -⟩⟩ := Money.exists_of_forall₂ (List.Forall₂.flip (R := flip _) hrows) he
  · exact he'
  · exact absurd (hid ▸ hlinked) hnot

lemma filter_turned {accepting : Prop} {t t' : Table SplitRule} (h : Turned venueId accepting t t') :
    t'.rows.filter (·.venueId != venueId) = t.rows.filter (·.venueId != venueId) := by
  refine filter_of_forall₂ h fun r r' hr => ?_
  rcases hr with heq | ⟨hvenue, hfollows⟩
  · exact .inl heq
  · exact .inr ⟨by simp [hvenue], by simp [hfollows.venueId, hvenue]⟩

lemma kept_rules {t : Table SplitRule} (h : t.rows.filter (·.venueId != venueId) =
    db.splitRules.rows.filter (·.venueId != venueId)) : Kept venueId db { db with splitRules := t } :=
  ⟨rfl, rfl, rfl, h, fun _ he _ => he⟩

lemma kept_adds {rule : SplitRule} {t : Table SplitRule} (hrule : rule.venueId = venueId)
    (h : Adds venueId rule db.splitRules t) : Kept venueId db { db with splitRules := t } := by
  obtain ⟨t₁, hturned, hinsert⟩ := h
  refine kept_rules ?_
  rw [Table.rows_insert hinsert, filter_of_append (by simp [hrule]), filter_turned hturned]

/-- The venues and their rules, the codes and links of others, and the entertainers were left alone. -/
lemma kept_tables (hsame : venuesAndRules db' = venuesAndRules db)
    (hcodes : db'.qrCodes.rows.filter (·.venueId != venueId) = db.qrCodes.rows.filter (·.venueId != venueId))
    (hlinks : db'.venueEntertainers.rows.filter (·.venueId != venueId) =
      db.venueEntertainers.rows.filter (·.venueId != venueId))
    (hentertainers : ∀ e ∈ db.entertainers.rows, ¬Linked db venueId e.id → e ∈ db'.entertainers.rows) :
    Kept venueId db db' := by
  obtain ⟨hvenues, hrules⟩ := Prod.mk.inj hsame
  exact ⟨by rw [hvenues], hcodes, hlinks, by rw [hrules], hentertainers⟩

lemma mem_of_same {e : Entertainer} (h : db'.entertainers = db.entertainers) (he : e ∈ db.entertainers.rows) :
    e ∈ db'.entertainers.rows := h ▸ he

/-- Whoever is not linked to the venue is not the one who was rewritten. -/
lemma mem_of_rewritten {id : Uuid} {f : Entertainer → Entertainer} {e : Entertainer}
    (h : db'.entertainers.rows = db.entertainers.rows.map fun e => if e.id == id then f e else e)
    (hlinked : ∀ e ∈ db.entertainers.rows, e.id = id → Linked db venueId id) (he : e ∈ db.entertainers.rows)
    (hnot : ¬Linked db venueId e.id) : e ∈ db'.entertainers.rows := by
  rw [h]
  refine List.mem_map.mpr ⟨e, he, if_neg fun hid => hnot ?_⟩
  rw [eq_of_beq hid]
  exact hlinked e he (eq_of_beq hid)

/-- An operation that concerns the venue. -/
lemma kept_operated (heffect : Effect db db' op) (hsame : venuesAndRules db' = venuesAndRules db)
    (hlinks : ∀ entertainerId v, op = .linkToVenue entertainerId v → NewLinksOf v db db')
    (howns : Owns venueId db op) : Kept venueId db db' := by
  cases heffect with
  | nothing _ heq => exact kept_same (by rw [heq])
  | created dto publicToken id _ _ hcodes hentertainers hsameLinks =>
    have hvenue : dto.venueId = venueId := howns
    refine kept_tables hsame ?_ (by rw [hsameLinks]) fun e he _ => mem_of_same hentertainers he
    rw [hcodes, filter_of_append (by simp [QrCodes.created, hvenue])]
  | deactivated id now hcodes hentertainers hsameLinks =>
    refine kept_tables hsame ?_ (by rw [hsameLinks]) fun e he _ => mem_of_same hentertainers he
    rw [hcodes]
    refine filter_of_map fun qrCode hcode => ?_
    split
    · rename_i hid
      have hvenue : qrCode.venueId = venueId := howns qrCode hcode (eq_of_beq hid)
      exact .inr ⟨by simp [hvenue], by simp [QrCodes.deactivated, hvenue]⟩
    · exact .inl rfl
  | replaced oldQrCode now publicToken newId hold hcodes hentertainers hsameLinks =>
    have hvenue : oldQrCode.venueId = venueId := howns oldQrCode hold rfl
    refine kept_tables hsame ?_ (by rw [hsameLinks]) fun e he _ => mem_of_same hentertainers he
    rw [hcodes, filter_of_append (by simp [successor, QrCodes.created, hvenue])]
    refine filter_of_map fun qrCode hcode => ?_
    split
    · rename_i hid
      have hvenue' : qrCode.venueId = venueId := howns qrCode hcode (eq_of_beq hid)
      exact .inr ⟨by simp [hvenue'], by simp [QrCodes.deactivated, hvenue']⟩
    · exact .inl rfl
  | entered dto e hcodes hentertainers hsameLinks =>
    refine kept_tables hsame (by rw [hcodes]) (by rw [hsameLinks]) fun e' he' _ => ?_
    rw [hentertainers]
    exact List.mem_append_left _ he'
  | edited id dto hcodes hentertainers hsameLinks =>
    exact kept_tables hsame (by rw [hcodes]) (by rw [hsameLinks]) fun e he hnot =>
      mem_of_rewritten hentertainers howns he hnot
  | retired id hcodes hentertainers hsameLinks =>
    refine kept_tables hsame ?_ (by rw [hsameLinks]) fun e he hnot => mem_of_rewritten hentertainers howns.1 he hnot
    rw [hcodes]
    refine filter_of_map fun qrCode hcode => ?_
    split
    · rename_i hnames
      rcases hactive : qrCode.isActive with _ | _
      · left
        rw [← hactive]
      · have hvenue : qrCode.venueId = venueId := howns.2 qrCode hcode (eq_of_beq hnames) hactive
        exact .inr ⟨by simp [hvenue], by simp [hvenue]⟩
    · exact .inl rfl
  | linked entertainerId v link hcodes hentertainers _ =>
    obtain ⟨links, hrows, hnew⟩ := hlinks entertainerId v rfl
    have hvenue : v = venueId := howns
    refine kept_tables hsame (by rw [hcodes]) ?_ fun e he _ => mem_of_same hentertainers he
    rw [hrows, filter_of_append fun link hlink => by simp [hnew link hlink, hvenue]]
  | unlinked link hlink hcodes hentertainers hrows =>
    have hvenue : link.venueId = venueId := howns
    refine kept_tables hsame (by rw [hcodes]) ?_ fun e he _ => mem_of_same hentertainers he
    rw [hrows, List.filter_filter]
    refine List.filter_congr fun link' hlink' => ?_
    rcases hid : link'.id == link.id with _ | _
    · simp
    · -- the link that went is one of the venue
      obtain rfl : link' = link := Table.eq_of_key (k := .id link.id) hlink' hlink
        (by simp [Indexed.keys, eq_of_beq hid]) (by simp [Indexed.keys])
      simp [hvenue]

end Kept

/-! ### What the guards leave -/

lemma Allows.not_platform (h : Allows s (some venueId) route) (hroles : route.requiredRoles = [.PLATFORM_ADMIN]) :
    False := by
  have hrole := h.role
  rw [hroles] at hrole
  simp at hrole

lemma Allows.own (h : Allows s (some venueId) route) {v : Uuid} (hscoped : route.venueScoped = true)
    (hv : (route.paramVenueId <|> route.bodyVenueId) = some v) : v = venueId :=
  (Option.some.inj (h.venue hscoped v hv)).symm

lemma Allows.linked (h : Allows s (some venueId) route) {e : Uuid} (hscoped : route.entertainerScoped = true)
    (he : route.paramEntertainerId = some e) : Linked s.db venueId e := by
  obtain ⟨v, hv, hlinked⟩ := h.entertainer hscoped e he
  rw [Option.some.inj hv]
  exact hlinked

/-- **What the guards let pass concerns the venue**, the answers to proposals and the routes that only ask
for a role apart. -/
theorem not_foreign (hallows : Allows s (some venueId) route)
    (howns : route.unscoped = true → ¬Foreign venueId s.db route)
    (hrespond : ∀ id token decision, route ≠ .respond id token decision) : ¬Foreign venueId s.db route := by
  intro hforeign
  cases route with
  -- the routes that only ask for a role
  | updateEntertainer _ _ | deactivateEntertainer _ | deactivateQrCode _ | regenerateQrCode _ =>
    exact howns rfl hforeign
  -- scoped by a venue
  | updateVenue v _ | deactivateVenue v | payoutAccountBankDetails v _ | payoutAccountResolve v
  | payoutAccountConfirm v _ => exact hforeign (hallows.own rfl rfl)
  | linkToVenue _ v | unlinkFromVenue _ v => exact hforeign (hallows.own rfl rfl)
  | propose body =>
    cases body with
    | valid dto => exact hforeign (hallows.own rfl rfl)
    | invalid _ => exact hforeign
  | createQrCode body =>
    cases body with
    | valid dto => exact hforeign (hallows.own rfl rfl)
    | invalid _ => exact hforeign
  -- scoped by an entertainer
  | kycBankDetails e _ | kycResolve e | kycConfirm e _ | kycVerifyIdentity e _ =>
    exact hforeign (hallows.linked rfl rfl)
  -- for platform admins
  | createVenue _ | override _ | kycReview _ _ => exact (hallows.not_platform rfl).elim
  | createEntertainer body =>
    cases body with
    | valid dto => exact hforeign trivial
    | invalid _ => exact hforeign
  | respond id token decision => exact hrespond _ _ _ rfl
  | _ => exact hforeign

/-- An answer is rejected, unless its token is that of the proposal. -/
lemma respond_rejected {id : Uuid} {token : String} {decision : Body Decision} (hx : Exchanges config x)
    (hroute : x.request.route = .respond id token decision) : x.Rejected ∨ ∃ rule ∈ x.before.db.splitRules.rows,
      rule.id = id ∧ rule.responseTokenHash = some (config.hashToken token) := by
  cases hx with
  | refused _ => exact .inl ⟨rfl, rfl⟩
  | turnedAway _ _ _ _ => exact .inl ⟨rfl, rfl⟩
  | invalid _ _ => exact .inl ⟨rfl, rfl⟩
  | @handled r now s s' user handler log res _ hdispatch hruns =>
    rw [show r.route = .respond id token decision from hroute] at hdispatch
    obtain ⟨decision, rfl, rfl⟩ := of_body hdispatch
    obtain ⟨-, ⟨e, rfl, rfl⟩ | ⟨updated, rules, -, -, h⟩⟩ := runs_rules hruns
    · exact .inl ⟨rfl, rfl⟩
    · obtain ⟨rule, hrule, hid, hhash, -⟩ := respond_alone h
      exact .inr ⟨rule, hrule, hid, hhash⟩

/-! ### What is so along the session -/

/-- The account is there, and the proposals that can be answered by a token that was returned are the
venue's. -/
structure OnlyVenue (config : Deployment) (userId venueId : Uuid) (found : User) (past : List Exchange) (s : Server) :
    Prop where
  there : s.users.find (·.id == userId) = some found
  proposals : ∀ token, Returned Response.consentToken past token → ∀ rule ∈ s.db.splitRules.rows,
    rule.responseTokenHash = some (config.hashToken token) → rule.venueId = venueId

/-- A proposal that can be answered is the venue's, or was there with the same token. -/
def NoTokensOfOthers (venueId : Uuid) (t t' : Table SplitRule) : Prop :=
  ∀ rule ∈ t'.rows, ∀ hash, rule.responseTokenHash = some hash →
    rule.venueId = venueId ∨ ∃ r ∈ t.rows, r.responseTokenHash = some hash ∧ r.venueId = rule.venueId

section Tokens

variable {t t' : Table SplitRule} {rule : SplitRule} {accepting : Prop} {v : Uuid}

lemma noTokens_same (h : t' = t) : NoTokensOfOthers venueId t t' := by
  intro rule hrule hash hhash
  rw [h] at hrule
  exact .inr ⟨rule, hrule, hhash, rfl⟩

lemma noTokens_turned (h : Turned v accepting t t') : NoTokensOfOthers venueId t t' := by
  intro rule hrule hash hhash
  obtain ⟨r, hr, htouch⟩ := Money.exists_of_forall₂ h hrule
  rcases htouch.follows.token with hnone | hsame
  · rw [hnone] at hhash
    cases hhash
  · exact .inr ⟨r, hr, hsame.symm.trans hhash, htouch.follows.venueId.symm⟩

lemma noTokens_adds (h : Adds v rule t t') (hrule : rule.venueId = venueId) : NoTokensOfOthers venueId t t' := by
  obtain ⟨t₁, hturned, hinsert⟩ := h
  intro r hr hash hhash
  rw [Table.rows_insert hinsert, List.mem_append, List.mem_singleton] at hr
  rcases hr with hold | rfl
  · exact noTokens_turned hturned r hold hash hhash
  · exact .inl hrule

/-- The token of a rule that was added is of no other. -/
lemma adds_token (h : Adds v rule t t') {hash : String} (hhash : rule.responseTokenHash = some hash) {r : SplitRule}
    (hr : r ∈ t'.rows) (hsame : r.responseTokenHash = some hash) : r = rule := by
  obtain ⟨t₁, -, hinsert⟩ := h
  have hrule : rule ∈ t'.rows := by
    rw [Table.rows_insert hinsert]
    simp
  exact Table.eq_of_key (k := .text hash) hr hrule (by simp [Indexed.keys, hsame]) (by simp [Indexed.keys, hhash])

end Tokens

/-- What can be answered is the venue's. -/
lemma OnlyVenue.answered (h : OnlyVenue config userId venueId found past x.before)
    (hbears : Bears config userId venueId past x) {id : Uuid} {token : String} {decision : Body Decision}
    {rule : SplitRule} (hroute : x.request.route = .respond id token decision)
    (hrule : rule ∈ x.before.db.splitRules.rows) (hhash : rule.responseTokenHash = some (config.hashToken token)) :
    rule.venueId = venueId := by
  rcases hbears.consentToken id token decision hroute rule hrule hhash with hvenue | hreturned
  · exact hvenue
  · exact h.proposals token hreturned rule hrule hhash

lemma OnlyVenue.snoc (h : OnlyVenue config userId venueId found past x.before)
    (husers : x.after.users = x.before.users)
    (hrules : NoTokensOfOthers venueId x.before.db.splitRules x.after.db.splitRules)
    (hnew : ∀ r token, x.response = some r → r.consentToken = some token → ∀ rule ∈ x.after.db.splitRules.rows,
      rule.responseTokenHash = some (config.hashToken token) → rule.venueId = venueId) :
    OnlyVenue config userId venueId found (past ++ [x]) x.after where
  there := by
    rw [husers]
    exact h.there
  proposals token hreturned rule hrule hhash := by
    rcases returned_snoc hreturned with hbefore | ⟨r, hr, htoken⟩
    · rcases hrules rule hrule _ hhash with hvenue | ⟨r, hr, hsame, hvenue⟩
      · exact hvenue
      · rw [← hvenue]
        exact h.proposals token hbefore r hr hsame
    · exact hnew r token hr htoken rule hrule hhash

lemma OnlyVenue.snoc_plain (h : OnlyVenue config userId venueId found past x.before)
    (husers : x.after.users = x.before.users) (hplain : ∀ r, x.response = some r → r.consentToken = none)
    (hrules : NoTokensOfOthers venueId x.before.db.splitRules x.after.db.splitRules) :
    OnlyVenue config userId venueId found (past ++ [x]) x.after :=
  h.snoc husers hrules fun r token hr htoken => by
    rw [hplain r hr] at htoken
    cases htoken

/-- A request that is another's is rejected. -/
lemma OnlyVenue.rejected (h : OnlyVenue config userId venueId found past x.before) (hadmin : found.role = .VENUE_ADMIN)
    (hvenue : found.venueId = some venueId) (hx : Exchanges config x) (hbears : Bears config userId venueId past x)
    (howns : KeepsToOwn venueId x)
    (hforeign : Foreign venueId x.before.db x.request.route) : x.Rejected := by
  rcases exchanges_called hx with ⟨-, hafter, hresponse⟩ | ⟨user, res, hpass, -, -, -⟩
  · exact ⟨hresponse, hafter⟩
  have hallows := allows_of_canActivate h.there hadmin hbears.bearer hpass
  rw [hvenue] at hallows
  by_cases hrespond : ∃ id token decision, x.request.route = .respond id token decision
  · obtain ⟨id, token, decision, hroute⟩ := hrespond
    rcases respond_rejected hx hroute with hrejected | ⟨rule, hrule, hid, hhash⟩
    · exact hrejected
    have hnamed := hforeign
    rw [hroute] at hnamed
    obtain ⟨rule', hrule', hid', hother⟩ := hnamed
    obtain rfl : rule' = rule := Table.eq_of_key (k := .id id) hrule' hrule (by simp [Indexed.keys, hid'])
      (by simp [Indexed.keys, hid])
    exact absurd (h.answered hbears hroute hrule hhash) hother
  · refine absurd hforeign (not_foreign hallows howns fun id token decision hroute => ?_)
    exact hrespond ⟨id, token, decision, hroute⟩

/-- **One exchange.** -/
theorem staysIn_exchange (h : OnlyVenue config userId venueId found past x.before)
    (hadmin : found.role = .VENUE_ADMIN) (hvenue : found.venueId = some venueId) (hx : Exchanges config x)
    (hbears : Bears config userId venueId past x) (howns : KeepsToOwn venueId x) :
    OnlyVenue config userId venueId found (past ++ [x]) x.after ∧ StaysIn venueId x := by
  have hrejected := h.rejected hadmin hvenue hx hbears howns
  rcases exchanges_called hx with ⟨-, hafter, hresponse⟩ | ⟨user, res, hpass, hres, husers, hmakes⟩
  · refine ⟨h.snoc_plain (by rw [hafter]) (fun r hr => ?_) (noTokens_same (by rw [hafter])), ?_, hrejected⟩
    · rw [hresponse] at hr
      cases hr
    · exact kept_same (by rw [hafter])
  have hallows := allows_of_canActivate h.there hadmin hbears.bearer hpass
  rw [hvenue] at hallows
  have hdone : Kept venueId x.before.db x.after.db →
      NoTokensOfOthers venueId x.before.db.splitRules x.after.db.splitRules → (∀ r, res = .ok r → r.Plain) →
      OnlyVenue config userId venueId found (past ++ [x]) x.after ∧ StaysIn venueId x := fun hkept hrules hplain =>
    ⟨h.snoc_plain husers (fun r hr => (hplain r ((response_handled hres).mp hr)).2) hrules, hkept, hrejected⟩
  have hregistry : ∀ {db db' : Db}, registry db' = registry db →
      NoTokensOfOthers venueId db.splitRules db'.splitRules := fun heq => noTokens_same (congrArg (·.2.2.2.2) heq)
  cases hmakes with
  | nothing heq hplain => exact hdone (kept_same heq) (hregistry heq) hplain
  | loggedIn dto user token _ hok _ _ heq =>
    refine ⟨h.snoc husers (hregistry heq) fun r token' hr htoken => ?_, kept_same heq, hrejected⟩
    obtain rfl := Except.ok.inj (hok.symm.trans ((response_handled hres).mp hr))
    cases htoken
  | redeemed token opened row _ hok _ _ _ heq =>
    refine ⟨h.snoc husers (hregistry heq) fun r token' hr htoken => ?_, kept_same heq, hrejected⟩
    obtain rfl := Except.ok.inj (hok.symm.trans ((response_handled hres).mp hr))
    cases htoken
  | proposed dto rule token url t hroute hok hrule _ hhash hdb hadds =>
    rw [hroute] at hallows
    obtain rfl : dto.venueId = venueId := hallows.own rfl rfl
    refine ⟨h.snoc husers ?_ fun r token' hr htoken rule' hrule' hhash' => ?_, ?_, hrejected⟩
    · rw [hdb]
      exact noTokens_adds hadds hrule
    · -- the token that is returned is that of the new proposal only
      obtain rfl := Except.ok.inj (hok.symm.trans ((response_handled hres).mp hr))
      obtain rfl := Option.some.inj htoken
      rw [hdb] at hrule'
      rw [adds_token hadds hhash hrule' hhash', hrule]
    · rw [hdb]
      exact kept_adds hrule hadds
  | overridden dto rule t hroute _ _ _ _ =>
    rw [hroute] at hallows
    exact (hallows.not_platform rfl).elim
  | responded token decision rule t hroute hrule hhash _ hdb hturned hplain =>
    rw [h.answered hbears hroute hrule hhash] at hturned
    rw [hdb] at hdone
    exact hdone (kept_rules (filter_turned hturned)) (noTokens_turned hturned) hplain
  | venueCreated dto t hroute _ _ =>
    rw [hroute] at hallows
    exact (hallows.not_platform rfl).elim
  | venueWritten v hscoped hparam hwrites hplain =>
    obtain rfl : v = venueId := hallows.own hscoped (by rw [hparam]; rfl)
    refine hdone (kept_venue hwrites) ?_ hplain
    obtain ⟨t, -, hdb⟩ := hwrites
    exact noTokens_same (by rw [hdb]; rfl)
  | confirmed id name hroute _ _ =>
    have hrole := hallows.role
    rw [hroute] at hrole
    simp [Route.requiredRoles] at hrole
  | onboarded id hguarded hparam hwrites hplain =>
    have hlinked : Linked x.before.db venueId id := by
      rcases hguarded with hscoped | hplatform
      · exact hallows.linked hscoped hparam
      · exact (hallows.not_platform hplatform).elim
    refine hdone (kept_entertainer hwrites hlinked) ?_ hplain
    obtain ⟨t, -, hdb⟩ := hwrites
    exact noTokens_same (by rw [hdb]; rfl)
  | operated op hroute heffect hsame _ hlinks hplain =>
    refine hdone (kept_operated heffect hsame hlinks ?_) (noTokens_same (congrArg Prod.snd hsame)) hplain
    by_contra hothers
    have hforeign : Foreign venueId x.before.db x.request.route := by
      simpa only [Foreign, hroute] using hothers
    refine not_foreign hallows howns (fun id token decision hrespond => ?_) hforeign
    rw [hrespond] at hroute
    cases hroute

/-- **Writes are isolated**, in every session of the admin of a venue who uses the routes that only ask for a
role for what is of the venue. -/
theorem writes_are_isolated (hfound : s₀.users.find (·.id == userId) = some found)
    (hadmin : found.role = .VENUE_ADMIN) (hvenue : found.venueId = some venueId) :
    WritesAreIsolated config userId venueId (KeepsToOwn venueId) s₀ := by
  intro xs s hsession halong
  refine (session_along hsession halong (I := OnlyVenue config userId venueId found)
    ⟨hfound, fun _ h => absurd h not_returned_nil⟩ fun past x hbefore hx hok => ?_).2
  obtain ⟨hbears, howns⟩ := hok
  exact staysIn_exchange hbefore hadmin hvenue hx hbears howns

theorem writes_are_isolated_sample : WritesAreIsolated sampleDeployment (Money.uid 9) (Money.uid 2)
    (KeepsToOwn (Money.uid 2)) sampleServer :=
  writes_are_isolated
    (show sampleServer.users.find (·.id == Money.uid 9) = some sampleUser from rfl) rfl rfl

/-! ### An entertainer of another venue -/

/-- The entertainer plays at another venue only. -/
def playsElsewhere : Server :=
  { sampleServer with db := { sampleServer.db with
      venueEntertainers := ⟨[⟨Money.uid 7, Money.uid 5, Money.uid 3⟩], by decide⟩ } }

/-- A check of requests that answer no proposal. -/
def bears (config : Deployment) (userId : Uuid) (x : Exchange) : Bool :=
  (x.request.bearer.all fun token => (config.verifyJwt x.now token).all fun payload =>
    payload.role != .ENTERTAINER && payload.sub == userId) &&
  match x.request.route with
  | .respond _ _ _ => false
  | _ => true

lemma bears_of (h : bears config userId x = true) : Bears config userId venueId past x := by
  obtain ⟨hbearer, hroute⟩ := Bool.and_eq_true_iff.mp h
  refine ⟨fun token payload htoken hverify => ?_, fun id token decision hrespond => ?_⟩
  · rw [htoken, Option.all_some, hverify, Option.all_some, Bool.and_eq_true] at hbearer
    exact ⟨bne_iff_ne.mp hbearer.1, eq_of_beq hbearer.2⟩
  · rw [hrespond] at hroute
    cases hroute

/-- Somebody who is not linked to the venue was changed. -/
def changesOthers (venueId : Uuid) (x : Exchange) : Bool := x.before.db.entertainers.rows.any fun e =>
  x.before.db.venueEntertainers.rows.all (fun link => !links venueId e.id link) &&
    x.after.db.entertainers.rows.all (· != e)

lemma not_staysIn (h : changesOthers venueId x = true) : ¬StaysIn venueId x := by
  intro hstays
  obtain ⟨e, he, hboth⟩ := List.any_eq_true.mp h
  simp only [Bool.and_eq_true, List.all_eq_true, bne_iff_ne] at hboth
  obtain ⟨hnone, hchanged⟩ := hboth
  refine hchanged e (hstays.kept.entertainers e he ?_) rfl
  rintro ⟨link, hlink, hvenue, hid⟩
  have hother := hnone link hlink
  simp [links, hvenue, hid] at hother

theorem admin_deactivates_others :
    ¬WritesAreIsolated sampleDeployment (Money.uid 9) (Money.uid 2) (fun _ => True) playsElsewhere := by
  intro hisolated
  have hrun : ((converse Money.agreeable sampleDeployment [] playsElsewhere
      [asAdmin 1 (.deactivateEntertainer (Money.uid 3))]).any fun r =>
        passes (fun _ x => bears sampleDeployment (Money.uid 9) x) [] r.1 &&
          r.1.any (changesOthers (Money.uid 2))) = true := by decide +kernel
  obtain ⟨xs, s, hsession, halong, x, hx, hchanges⟩ := session_passes
    (C := fun past x => Bears sampleDeployment (Money.uid 9) (Money.uid 2) past x ∧ True)
    (fun _ _ hcheck => ⟨bears_of hcheck, trivial⟩) hrun
  exact not_staysIn hchanges (hisolated xs s hsession halong x hx)

end Splitcore.Http
