import Splitcore.EntertainerAuth.Service
import Splitcore.Interleaving.Recording

/-!
Login tokens: what every statement does to them, and what a call that returns has done.
-/

namespace Splitcore.EntertainerAuth

open Relational Interleaving

variable {hashToken : String → String} {config : Config} {db db' : Db} {w : Input} {entertainerId tokenId : Uuid}
  {t t' : EntertainerLoginToken}

/-! ### Statements -/

/-- The same link, at a later time. -/
structure Persists (t t' : EntertainerLoginToken) : Prop where
  id : t'.id = t.id
  entertainerId : t'.entertainerId = t.entertainerId
  tokenHash : t'.tokenHash = t.tokenHash
  expiresAt : t'.expiresAt = t.expiresAt
  consumed : t.consumedAt ≠ none → t'.consumedAt ≠ none

/-- Links stay, and stay used. -/
def LinksLast (db db' : Db) : Prop := ∀ t ∈ db.loginTokens.rows, ∃ t' ∈ db'.loginTokens.rows, Persists t t'

lemma LinksLast.refl (db : Db) : LinksLast db db := fun t ht => ⟨t, ht, rfl, rfl, rfl, rfl, id⟩

lemma LinksLast.trans {db'' : Db} (h : LinksLast db db') (h' : LinksLast db' db'') : LinksLast db db'' := by
  intro t ht
  obtain ⟨t', ht', hpersists⟩ := h t ht
  obtain ⟨t'', ht'', hpersists'⟩ := h' t' ht'
  exact ⟨t'', ht'', hpersists'.id.trans hpersists.id, hpersists'.entertainerId.trans hpersists.entertainerId,
    hpersists'.tokenHash.trans hpersists.tokenHash, hpersists'.expiresAt.trans hpersists.expiresAt,
    fun hused => hpersists'.consumed (hpersists.consumed hused)⟩

/-- Unused tokens that `p` selects are used from now on. -/
def consumed (p : EntertainerLoginToken → Bool) (now : Time) (t : EntertainerLoginToken) : EntertainerLoginToken :=
  if p t && t.consumedAt.isNone then { t with consumedAt := some now } else t

lemma persists_consumed {p : EntertainerLoginToken → Bool} {now : Time} : Persists t (consumed p now t) := by
  unfold consumed
  split
  · exact ⟨rfl, rfl, rfl, rfl, fun _ => by simp⟩
  · exact ⟨rfl, rfl, rfl, rfl, id⟩

/-- The token has been used. -/
def Used (tokenId : Uuid) (db : Db) : Prop := ∃ t ∈ db.loginTokens.rows, t.id = tokenId ∧ t.consumedAt ≠ none

/-- The token, not used so far, is used. -/
def Uses (tokenId : Uuid) (db db' : Db) : Prop :=
  (∃ t ∈ db.loginTokens.rows, t.id = tokenId ∧ t.consumedAt = none) ∧ Used tokenId db'

lemma Used.lasts (h : Used tokenId db) (hlast : LinksLast db db') : Used tokenId db' := by
  obtain ⟨t, ht, hid, hused⟩ := h
  obtain ⟨t', ht', hpersists⟩ := hlast t ht
  exact ⟨t', ht', hpersists.id.trans hid, hpersists.consumed hused⟩

lemma token_eq (ht : t ∈ db.loginTokens.rows) (ht' : t' ∈ db.loginTokens.rows) (hid : t.id = t'.id) : t = t' :=
  Table.eq_of_key (k := .id t.id) ht ht' (by simp [Indexed.keys]) (by simp [Indexed.keys, hid])

lemma Uses.unused (h : Uses tokenId db db') : ¬Used tokenId db := by
  obtain ⟨⟨t, ht, hid, hunused⟩, -⟩ := h
  rintro ⟨t', ht', hid', hused⟩
  rw [token_eq ht' ht (hid'.trans hid.symm)] at hused
  exact hused hunused

/-- What a statement may do to the tokens. -/
inductive TokenStep (site : Site) (db db' : Db) : Prop
  | same (htokens : db'.loginTokens = db.loginTokens)
  | consumes (p : EntertainerLoginToken → Bool) (now : Time)
      (hsite : (∃ e, site = .issueLoginLinkSupersede e ∧ p = fun t => t.entertainerId == e) ∨
        ∃ id, site = .redeemClaim id ∧ p = fun t => t.id == id)
      (hrows : db'.loginTokens.rows = db.loginTokens.rows.map (consumed p now))
  | creates (t : EntertainerLoginToken) (hsite : site = .issueLoginLinkCreate t.entertainerId)
      (hunused : t.consumedAt = none) (hrows : db'.loginTokens.rows = db.loginTokens.rows ++ [t])

lemma TokenStep.linksLast {site : Site} (h : TokenStep site db db') : LinksLast db db' := by
  cases h with
  | same htokens =>
    intro t ht
    exact ⟨t, htokens ▸ ht, rfl, rfl, rfl, rfl, id⟩
  | consumes p now hsite hrows =>
    intro t ht
    exact ⟨consumed p now t, hrows ▸ List.mem_map_of_mem ht, persists_consumed⟩
  | creates t hsite hunused hrows =>
    intro t' ht'
    exact ⟨t', hrows ▸ List.mem_append_left _ ht', rfl, rfl, rfl, rfl, id⟩

lemma consume_rows {p : EntertainerLoginToken → Bool} {now : Time} {σ σ' : Db × ℕ} {n : ℕ}
    (h : Model.entertainerLoginToken.updateMany (fun t => p t && t.consumedAt.isNone)
      (fun t => { t with consumedAt := some now }) w σ = .ok (n, σ')) :
    n = σ.1.loginTokens.rows.countP (fun t => p t && t.consumedAt.isNone) ∧
      σ'.1.loginTokens.rows = σ.1.loginTokens.rows.map (consumed p now) := by
  obtain ⟨hn, table, htable, rfl⟩ := Model.updateMany_ok h
  exact ⟨hn, Table.rows_update htable⟩

lemma supersede_ok {n : ℕ} (h : (supersede entertainerId).run w db = .ok (n, db')) :
    (∃ now, db'.loginTokens.rows = db.loginTokens.rows.map (consumed (fun t => t.entertainerId == entertainerId) now)) ∧
      ∀ t ∈ db.loginTokens.rows, t.entertainerId = entertainerId → Used t.id db' := by
  obtain ⟨k, h⟩ := Tx.run_ok.mp h
  simp only [supersede, Tx.bind_ok, Tx.now_ok] at h
  obtain ⟨_, _, ⟨rfl, rfl⟩, hupd⟩ := h
  obtain ⟨-, hrows⟩ := consume_rows hupd
  refine ⟨⟨_, hrows⟩, fun t ht he =>
    ⟨consumed (fun t => t.entertainerId == entertainerId) w.now t, ?_, persists_consumed.id, ?_⟩⟩
  · rw [hrows]
    exact List.mem_map_of_mem ht
  · rcases hused : t.consumedAt with _ | now
    · simp [consumed, he, hused]
    · simp [consumed, hused]

/-- A claim that took a token found it unused. -/
lemma claim_ok {n : ℕ} (h : (claim tokenId).run w db = .ok (n, db')) :
    (∃ now, db'.loginTokens.rows = db.loginTokens.rows.map (consumed (fun t => t.id == tokenId) now)) ∧
      (n ≠ 0 → Uses tokenId db db') := by
  obtain ⟨k, h⟩ := Tx.run_ok.mp h
  simp only [claim, Tx.bind_ok, Tx.now_ok] at h
  obtain ⟨_, _, ⟨rfl, rfl⟩, hupd⟩ := h
  obtain ⟨-, hrows⟩ := consume_rows hupd
  refine ⟨⟨_, hrows⟩, fun hn => ?_⟩
  obtain ⟨t, ht, hguard⟩ := Model.updateMany_pos hupd hn
  have hmem : consumed (fun t => t.id == tokenId) w.now t ∈ db'.loginTokens.rows := by
    rw [hrows]
    exact List.mem_map_of_mem ht
  rw [consumed, if_pos hguard] at hmem
  simp only [Bool.and_eq_true, beq_iff_eq, Option.isNone_iff_eq_none] at hguard
  exact ⟨⟨t, ht, hguard⟩, _, hmem, hguard.1, by simp⟩

lemma createToken_ok {tokenHash : String} {expiresAt : Time} {u : Unit}
    (h : (createToken entertainerId tokenHash expiresAt).run w db = .ok (u, db')) :
    ∃ id, db'.loginTokens.rows = db.loginTokens.rows ++ [⟨id, entertainerId, tokenHash, expiresAt, none⟩] := by
  obtain ⟨k, h⟩ := Tx.run_ok.mp h
  simp only [createToken, Tx.bind_ok, Tx.freshId_ok] at h
  obtain ⟨id, _, ⟨rfl, rfl⟩, hcreate⟩ := h
  obtain ⟨table, htable, hafter⟩ := Model.create_ok hcreate
  obtain rfl : db' = { db with loginTokens := table } := congrArg Prod.fst hafter
  exact ⟨_, Table.rows_insert htable⟩

lemma tokenStep_read {α β : Type} {site : Site} {f : Db → α} {k : α → Prog App β} (hk : ∀ a, (k a).Each TokenStep) :
    (query site f >>= k).Each TokenStep :=
  Prog.each_bind (Prog.each_query fun _ => .same rfl) hk

lemma tokenStep_statement {α : Type} {site : Site} {m : Tx α}
    (h : ∀ w db a db', m.run w db = .ok (a, db') → TokenStep site db db') : (statement site m).Each TokenStep :=
  Prog.each_command (fun _ => .same rfl) h

lemma issueLoginLink_each : (issueLoginLink hashToken config entertainerId).Each TokenStep := by
  refine tokenStep_read fun found => ?_
  rcases found with _ | entertainer
  · trivial
  simp only
  split
  · trivial
  refine Prog.each_bind (tokenStep_statement fun w db drawn db' h => ?_) fun drawn => Prog.each_bind
    (tokenStep_statement fun w db n db' h => ?_) fun _ => Prog.each_bind
    (tokenStep_statement fun w db u db' h => ?_) fun _ => trivial
  · obtain ⟨n, h⟩ := Tx.run_ok.mp h
    simp only [Tx.bind_ok, Tx.randomBytes_ok, Tx.now_ok, Tx.pure_ok] at h
    obtain ⟨_, _, ⟨-, rfl⟩, _, _, ⟨-, rfl⟩, -, heq⟩ := h
    exact .same (congrArg (fun σ : Db × ℕ => σ.1.loginTokens) heq).symm
  · obtain ⟨⟨now, hrows⟩, -⟩ := supersede_ok h
    exact .consumes _ now (.inl ⟨_, rfl, rfl⟩) hrows
  · obtain ⟨id, hrows⟩ := createToken_ok h
    exact .creates _ rfl rfl hrows

lemma redeem_each {token : String} : (redeem hashToken token).Each TokenStep := by
  refine tokenStep_read fun found => ?_
  rcases found with _ | ⟨candidate, entertainer⟩
  · trivial
  simp only
  split
  · trivial
  split
  · trivial
  refine Prog.each_bind (tokenStep_statement fun w db now db' h => ?_) fun now => ?_
  · obtain ⟨n, h⟩ := Tx.run_ok.mp h
    exact .same (congrArg (fun σ : Db × ℕ => σ.1.loginTokens) (Tx.now_ok.mp h).2).symm
  split
  · trivial
  split
  · trivial
  refine Prog.each_bind (tokenStep_statement fun w db n db' h => ?_) fun count => ?_
  · obtain ⟨⟨now, hrows⟩, -⟩ := claim_ok h
    exact .consumes _ now (.inr ⟨_, rfl, rfl⟩) hrows
  split
  · trivial
  · exact Prog.each_bind Prog.each_request fun _ => trivial

lemma program_each (c : LoginCall) : (c.program hashToken config).Each TokenStep := by
  cases c with
  | issueLoginLink entertainerId => exact Prog.each_bind issueLoginLink_each fun _ => trivial
  | redeem token => exact Prog.each_bind redeem_each fun _ => trivial

/-! ### Calls that return -/

/-- A link that was issued: the moments of the lookup, the draw, the superseding and the creation. -/
structure Issue where
  lookup : Input × Db
  draw : Input × Db
  supersede : Input × Db × Db
  create : Input × Db × Db

namespace Issue

def token (x : Issue) : String := x.draw.1.randomBytes

def expiresAt (x : Issue) : Time := x.draw.1.now + LINK_TTL_MINUTES * 60000

def log (x : Issue) (entertainerId : Uuid) : List (Did App) :=
  [.stmt (.issueLoginLinkEntertainer entertainerId) x.lookup.1 x.lookup.2 x.lookup.2,
    .stmt (.issueLoginLinkToken entertainerId) x.draw.1 x.draw.2 x.draw.2,
    .stmt (.issueLoginLinkSupersede entertainerId) x.supersede.1 x.supersede.2.1 x.supersede.2.2,
    .stmt (.issueLoginLinkCreate entertainerId) x.create.1 x.create.2.1 x.create.2.2]

/-- The token the call created. -/
def Created (hashToken : String → String) (x : Issue) (entertainerId : Uuid) (t : EntertainerLoginToken) : Prop :=
  x.create.2.2.loginTokens.rows = x.create.2.1.loginTokens.rows ++ [t] ∧ t.entertainerId = entertainerId ∧
    t.tokenHash = hashToken x.token ∧ t.expiresAt = x.expiresAt ∧ t.consumedAt = none

end Issue

/-- A session that was opened: the link found, the moments of the lookup, the checks and the claim, and the JWT. -/
structure Redemption where
  candidate : EntertainerLoginToken
  lookup : Input × Db
  checks : Input × Db
  claim : Input × Db × Db
  accessToken : String

namespace Redemption

def log (x : Redemption) (tokenHash : String) : List (Did App) :=
  [.stmt (.redeemFind tokenHash) x.lookup.1 x.lookup.2 x.lookup.2,
    .stmt (.redeemNow x.candidate.id) x.checks.1 x.checks.2 x.checks.2,
    .stmt (.redeemClaim x.candidate.id) x.claim.1 x.claim.2.1 x.claim.2.2,
    .asked (.signAsync (sessionPayload x.candidate.entertainerId) SESSION_TTL),
    .answered (.signAsync (sessionPayload x.candidate.entertainerId) SESSION_TTL) (.ok x.accessToken)]

/-- The link was there, in time at the checks, and unused at the claim, which used it. -/
structure Valid (x : Redemption) (tokenHash : String) : Prop where
  found : x.candidate ∈ x.lookup.2.loginTokens.rows
  tokenHash : x.candidate.tokenHash = tokenHash
  inTime : x.checks.1.now ≤ x.candidate.expiresAt
  uses : Uses x.candidate.id x.claim.2.1 x.claim.2.2

end Redemption

/-- What a call that returned has done. -/
def Report (hashToken : String → String) : LoginCall → List (Did App) → Prop
  | .issueLoginLink entertainerId, log => ∃ (x : Issue) (t : EntertainerLoginToken),
      log = x.log entertainerId ∧ x.Created hashToken entertainerId t
  | .redeem token, log => ∃ x : Redemption, log = x.log (hashToken token) ∧ x.Valid (hashToken token)

/-- Whoever creates a link has first used up those there were. -/
def SupersedesFirst (_ : LoginCall) (log : List (Did App)) : Prop :=
  ∀ e w s s', .stmt (.issueLoginLinkCreate e) w s s' ∈ log →
    ∃ w₁ s₁ s₁', .stmt (.issueLoginLinkSupersede e) w₁ s₁ s₁' ∈ log ∧
    ∀ t ∈ s₁.loginTokens.rows, t.entertainerId = e → Used t.id s₁'

variable {log : List (Did App)} {c : LoginCall} {site : Site}

/-- Whoever does not create a link need not. -/
lemma SupersedesFirst.snoc {d : Did App} (h : SupersedesFirst c log)
    (hd : ∀ e w s s', d ≠ .stmt (.issueLoginLinkCreate e) w s s') : SupersedesFirst c (log ++ [d]) := by
  intro e w s s' hmem
  rcases List.mem_append.mp hmem with hmem | hmem
  · obtain ⟨w₁, s₁, s₁', hsupersede, hused⟩ := h e w s s' hmem
    exact ⟨w₁, s₁, s₁', List.mem_append_left _ hsupersede, hused⟩
  · exact absurd (List.mem_singleton.mp hmem).symm (hd e w s s')

/-- What is left of a call goes on after `log`, and has to end with a report. -/
def Reports {α : Type} (hashToken : String → String) (p : Prog App α) (c : LoginCall) (log : List (Did App)) : Prop :=
  Obeys (reporting SupersedesFirst (Report hashToken)) (fun g r => (∃ a, r = .ok a) → Report hashToken g.1 g.2) p (c, log)

section Reports

variable {α β : Type}

lemma reports_raise {e : Err} : Reports hashToken (.raise e : Prog App α) c log := fun ⟨_, h⟩ => by cases h

lemma reports_bind {p : Prog App α} {k : α → Prog App β}
    (h : Obeys (reporting SupersedesFirst (Report hashToken))
      (fun g r => ∀ a, r = .ok a → g.1 = c ∧ Reports hashToken (k a) c g.2) p (c, log)) :
    Reports hashToken (p >>= k) c log := by
  refine obeys_bind.mpr (h.mono fun g r hr => ?_)
  rcases r with e | a
  · exact fun ⟨_, he⟩ => by cases he
  · obtain ⟨hc, hk⟩ := hr a rfl
    rw [Reports, ← hc] at hk
    exact hk

lemma reports_statement {m : Tx α} {k : α → Prog App β}
    (hlog : ∀ w db db', SupersedesFirst c (log ++ [.stmt site w db db']))
    (h : ∀ w db a db', m.run w db = .ok (a, db') → Reports hashToken (k a) c (log ++ [.stmt site w db db'])) :
    Reports hashToken (statement site m >>= k) c log := by
  refine reports_bind (obeys_command (fun w db a db' _ hm => ⟨hlog w db db', fun a' ha => ⟨rfl, ?_⟩⟩)
    (fun w db _ _ _ => hlog w db db) fun _ _ _ he => by cases he)
  obtain rfl : a = a' := Except.ok.inj ha
  exact h w db a db' hm

lemma reports_query {f : Db → α} {k : α → Prog App β} (hlog : ∀ w db, SupersedesFirst c (log ++ [.stmt site w db db]))
    (h : ∀ w db, Reports hashToken (k (f db)) c (log ++ [.stmt site w db db])) :
    Reports hashToken (query site f >>= k) c log := by
  refine reports_bind (obeys_query (fun w db _ => ⟨hlog w db, fun a ha => ⟨rfl, ?_⟩⟩) fun _ _ _ he => by cases he)
  obtain rfl : f db = a := Except.ok.inj ha
  exact h w db

lemma reports_request {q : Ask} {k : Ans q → Prog App β} (hlog : SupersedesFirst c (log ++ [.asked q]))
    (h : ∀ a, Reports hashToken (k a) c (log ++ [.asked q, .answered q (.ok a)])) :
    Reports hashToken (request q >>= k) c log := by
  refine reports_bind (obeys_request hlog fun a a' ha => ⟨rfl, ?_⟩)
  subst ha
  have hk := h a'
  rwa [show log ++ [Did.asked q, .answered q (.ok a')] = log ++ [.asked q] ++ [.answered q (.ok a')] by simp] at hk

end Reports

lemma supersedesFirst_nil : SupersedesFirst c [] := fun _ _ _ _ h => by cases h

lemma issueLoginLink_reports : Reports hashToken (issueLoginLink hashToken config entertainerId)
    (.issueLoginLink entertainerId) [] := by
  have hlookup : ∀ w db, SupersedesFirst (.issueLoginLink entertainerId)
      ([] ++ [.stmt (.issueLoginLinkEntertainer entertainerId) w db db]) := fun w db =>
    supersedesFirst_nil.snoc fun _ _ _ _ h => by cases h
  refine reports_query hlookup fun w₁ db₁ => ?_
  rcases db₁.entertainers.find (·.id == entertainerId) with _ | entertainer
  · exact reports_raise
  simp only
  split
  · exact reports_raise
  have hdrawn : ∀ w db db', SupersedesFirst (.issueLoginLink entertainerId)
      ([] ++ [.stmt (.issueLoginLinkEntertainer entertainerId) w₁ db₁ db₁] ++
        [.stmt (.issueLoginLinkToken entertainerId) w db db']) := fun w db db' =>
    (hlookup w₁ db₁).snoc fun _ _ _ _ h => by cases h
  refine reports_statement hdrawn fun w₂ db₂ drawn db₂' hdraw => ?_
  have hbefore : ∀ w db db', SupersedesFirst (.issueLoginLink entertainerId)
      ([] ++ [.stmt (.issueLoginLinkEntertainer entertainerId) w₁ db₁ db₁] ++
        [.stmt (.issueLoginLinkToken entertainerId) w₂ db₂ db₂'] ++
        [.stmt (.issueLoginLinkSupersede entertainerId) w db db']) := fun w db db' =>
    (hdrawn w₂ db₂ db₂').snoc fun _ _ _ _ h => by cases h
  refine reports_statement hbefore fun w₃ db₃ n db₃' hsupersede => ?_
  refine reports_statement (fun w db db' e w' s s' hmem => ?_) fun w₄ db₄ u db₄' hcreate => fun _ => ?_
  · -- the outstanding links were used up just before
    simp only [List.nil_append, List.cons_append, List.mem_cons, Did.stmt.injEq, Site.issueLoginLinkCreate.injEq,
      reduceCtorEq, false_and, false_or, List.not_mem_nil, or_false] at hmem
    obtain ⟨rfl, -⟩ := hmem
    exact ⟨w₃, db₃, db₃', by simp, (supersede_ok hsupersede).2⟩
  obtain ⟨n, hdraw⟩ := Tx.run_ok.mp hdraw
  simp only [Tx.bind_ok, Tx.randomBytes_ok, Tx.now_ok, Tx.pure_ok] at hdraw
  obtain ⟨_, _, ⟨rfl, rfl⟩, _, _, ⟨rfl, rfl⟩, rfl, heq⟩ := hdraw
  obtain rfl : db₂ = db₂' := congrArg Prod.fst heq
  obtain ⟨id, hrows⟩ := createToken_ok hcreate
  exact ⟨⟨(w₁, db₁), (w₂, db₂), (w₃, db₃, db₃'), (w₄, db₄, db₄')⟩, _, rfl, hrows, rfl, rfl, rfl, rfl⟩

lemma redeem_reports {token : String} : Reports hashToken (redeem hashToken token) (.redeem token) [] := by
  have hlookup : ∀ w db, SupersedesFirst (.redeem token)
      ([] ++ [.stmt (.redeemFind (hashToken token)) w db db]) := fun w db =>
    supersedesFirst_nil.snoc fun _ _ _ _ h => by cases h
  refine reports_query hlookup fun w₁ db₁ => ?_
  rcases hfound : tokenWithEntertainer (hashToken token) db₁ with _ | ⟨candidate, entertainer⟩
  · exact reports_raise
  simp only
  split
  · exact reports_raise
  rename_i hhash
  split
  · exact reports_raise
  have hchecks : ∀ w db db', SupersedesFirst (.redeem token) ([] ++ [.stmt (.redeemFind (hashToken token)) w₁ db₁ db₁] ++
      [.stmt (.redeemNow candidate.id) w db db']) := fun w db db' =>
    (hlookup w₁ db₁).snoc fun _ _ _ _ h => by cases h
  refine reports_statement hchecks fun w₂ db₂ now db₂' hnow => ?_
  obtain ⟨n, hnow⟩ := Tx.run_ok.mp hnow
  obtain ⟨rfl, heq⟩ := Tx.now_ok.mp hnow
  obtain rfl : db₂ = db₂' := congrArg Prod.fst heq
  split
  · exact reports_raise
  rename_i hexpired
  split
  · exact reports_raise
  have hclaims : ∀ w db db', SupersedesFirst (.redeem token) ([] ++ [.stmt (.redeemFind (hashToken token)) w₁ db₁ db₁] ++
      [.stmt (.redeemNow candidate.id) w₂ db₂ db₂] ++ [.stmt (.redeemClaim candidate.id) w db db']) := fun w db db' =>
    (hchecks w₂ db₂ db₂).snoc fun _ _ _ _ h => by cases h
  refine reports_statement hclaims fun w₃ db₃ count db₃' hclaim => ?_
  split
  · exact reports_raise
  rename_i hcount
  refine reports_request ((hclaims w₃ db₃ db₃').snoc fun _ _ _ _ h => by cases h) fun accessToken _ => ?_
  have hcandidate : candidate ∈ db₁.loginTokens.rows := by
    obtain ⟨found, hfind, hrest⟩ := Option.bind_eq_some_iff.mp hfound
    obtain ⟨e, -, heq⟩ := Option.bind_eq_some_iff.mp hrest
    obtain rfl : found = candidate := congrArg Prod.fst (Option.some.inj heq)
    exact Table.mem_of_find hfind
  exact ⟨⟨candidate, (w₁, db₁), (w₂, db₂), (w₃, db₃, db₃'), accessToken⟩, rfl, hcandidate, (not_not.mp hhash).symm,
    not_lt.mp hexpired, (claim_ok hclaim).2 hcount⟩

lemma program_reports (c : LoginCall) : Obeys (reporting SupersedesFirst (Report hashToken))
    (reporting SupersedesFirst (Report hashToken)).post (c.program hashToken config) (c, []) := by
  have hend : ∀ {α : Type} {p : Prog App α}, Reports hashToken p c [] →
      Obeys (reporting SupersedesFirst (Report hashToken)) (reporting SupersedesFirst (Report hashToken)).post
        (p >>= fun _ => pure ()) (c, []) := by
    intro α p h
    refine obeys_bind.mpr (h.mono fun g r hr => ?_)
    rcases r with e | a
    · exact fun he => by cases he
    · exact fun _ => hr ⟨a, rfl⟩
  cases c with
  | issueLoginLink entertainerId => exact hend issueLoginLink_reports
  | redeem token => exact hend redeem_reports

end Splitcore.EntertainerAuth
