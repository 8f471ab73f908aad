import Splitcore.EntertainerAuth.Redeemed

/-!
Issuing a link invalidates those issued before, as long as no other link of the entertainer is created between
the two statements of a call.
-/

namespace Splitcore.EntertainerAuth

open Relational Interleaving

variable {hashToken : String → String} {config : Config} {ok : Pool App LoginCall Unit → Event App LoginCall Db → Prop}
  {p p' p₀ : Pool App LoginCall Unit} {ev : Event App LoginCall Db} {r r' : Run App LoginCall}
  {tokenId entertainerId : Uuid}
  {i : ℕ} {db db' : Db}

/-- At most one link of an entertainer is unused. -/
def OneOutstanding (db : Db) : Prop := ∀ t ∈ db.loginTokens.rows, ∀ t' ∈ db.loginTokens.rows,
  t.entertainerId = t'.entertainerId → t.consumedAt = none → t'.consumedAt = none → t = t'

/-- When a call creates its link, nobody has created another for the entertainer since it used up those there were. -/
def NoneCreatedSince (p : Pool App LoginCall Unit) (ev : Event App LoginCall Db) : Prop :=
  ∀ i r e eff k, executes ev = some i → p.live i = some r → r.prog = .stmt (.issueLoginLinkCreate e) eff k →
    ∀ w s s', .stmt (.issueLoginLinkSupersede e) w s s' ∈ r.log →
      ∀ t ∈ p.store.loginTokens.rows, t.entertainerId = e → ∃ t₀ ∈ s.loginTokens.rows, t₀.id = t.id ∧ t₀.entertainerId = e

/-- Whether a run has used the token. -/
def HasUsed (tokenId : Uuid) (p : Pool App LoginCall Unit) (i : ℕ) : Prop :=
  ∃ r, p.runs[i]? = some r ∧ Fired (fun _ => Uses tokenId) r

/-- One link of an entertainer is unused at most; and once a call has returned, no link that was there when it
created its own is redeemed any more: whoever opens a session with it, now or later, has claimed it already. -/
structure EarlierInvalid (hashToken : String → String) (config : Config) (p : Pool App LoginCall Unit) : Prop where
  outstanding : OneOutstanding p.store
  earlier : ∀ r ∈ p.runs, ∀ e (x : Issue), Issued r e x → ∀ t ∈ x.create.2.1.loginTokens.rows, t.entertainerId = e →
    ∀ p', Reach (logins hashToken config) anyEvent p p' → ∀ i r' token, p'.runs[i]? = some r' → Redeemed r' token →
      hashToken token = t.tokenHash → HasUsed t.id p i

/-! ### Used links -/

/-- Links last however a run goes on. -/
lemma logins_last (hallowed : Allowed TokenStep LinksLast p₀.store p) (h : Reach (logins hashToken config) ok p p') :
    Allowed TokenStep LinksLast p₀.store p' ∧ LinksLast p.store p'.store := by
  refine h.keeps (P := fun p' => Allowed TokenStep LinksLast p₀.store p' ∧ LinksLast p.store p'.store)
    (fun q ev q' hq _ hs => ?_) ⟨hallowed, .refl _⟩
  exact ⟨logins_step hq.1 hs, hq.2.trans (logins_order hq.1 hs)⟩

/-- A token that is used is used by nobody else. -/
lemma hasUsed_of_used (hallowed : Allowed TokenStep LinksLast p₀.store p) (hused : Used tokenId p.store)
    (h : Reach (logins hashToken config) anyEvent p p') (hafter : HasUsed tokenId p' i) : HasUsed tokenId p i := by
  suffices hall : Allowed TokenStep LinksLast p₀.store p' ∧ Used tokenId p'.store ∧
      (HasUsed tokenId p' i → HasUsed tokenId p i) from
    hall.2.2 hafter
  refine h.keeps (P := fun p' => Allowed TokenStep LinksLast p₀.store p' ∧ Used tokenId p'.store ∧
    (HasUsed tokenId p' i → HasUsed tokenId p i)) (fun q ev q' hq _ hs => ?_) ⟨hallowed, hused, id⟩
  refine ⟨logins_step hq.1 hs, hq.2.1.lasts (logins_order hq.1 hs), fun ⟨r, hr, hfired⟩ => ?_⟩
  rcases fired_step hq.1 hs hr hfired with hbefore | ⟨-, -, -, hnow⟩
  · exact hq.2.2 hbefore
  · exact absurd hq.2.1 hnow.unused

lemma OneOutstanding.of_used (h : OneOutstanding db) (hlast : ∀ t' ∈ db'.loginTokens.rows, t'.consumedAt = none →
    t' ∈ db.loginTokens.rows) : OneOutstanding db' := fun t ht t' ht' he hunused hunused' =>
  h t (hlast t ht hunused) t' (hlast t' ht' hunused') he hunused hunused'

lemma mem_of_consumed {q : EntertainerLoginToken → Bool} {now : Time} {t' : EntertainerLoginToken}
    {rows : List EntertainerLoginToken} (h : t' ∈ rows.map (consumed q now)) (hunused : t'.consumedAt = none) :
    t' ∈ rows := by
  obtain ⟨t, ht, rfl⟩ := List.mem_map.mp h
  unfold consumed at hunused ⊢
  split
  · rename_i hguard
    rw [if_pos hguard] at hunused
    cases hunused
  · exact ht

/-- Where a link is created, those of its entertainer are used. -/
lemma outstanding_step {site : Site} (h : OneOutstanding db) (hstep : TokenStep site db db')
    (hcreate : ∀ e, site = .issueLoginLinkCreate e → ∀ t ∈ db.loginTokens.rows, t.entertainerId = e → Used t.id db) :
    OneOutstanding db' := by
  cases hstep with
  | same htokens => exact h.of_used fun t' ht' _ => htokens ▸ ht'
  | consumes q now hsite hrows => exact h.of_used fun t' ht' hunused => mem_of_consumed (hrows ▸ ht') hunused
  | creates t hsite hunused hrows =>
    have hnone : ∀ t' ∈ db.loginTokens.rows, t'.entertainerId = t.entertainerId → t'.consumedAt ≠ none := by
      intro t' ht' he hunused'
      obtain ⟨t'', ht'', hid, hused⟩ := hcreate _ hsite t' ht' he
      rw [token_eq ht'' ht' hid] at hused
      exact hused hunused'
    intro t₁ ht₁ t₂ ht₂ he hunused₁ hunused₂
    rw [hrows, List.mem_append, List.mem_singleton] at ht₁ ht₂
    rcases ht₁ with ht₁ | rfl <;> rcases ht₂ with ht₂ | rfl
    · exact h t₁ ht₁ t₂ ht₂ he hunused₁ hunused₂
    · exact absurd hunused₁ (hnone t₁ ht₁ he)
    · exact absurd hunused₂ (hnone t₂ ht₂ he.symm)
    · rfl

/-! ### Runs -/

/-- Where a call creates its link, every other of the entertainer is used. -/
lemma used_where_created {w : Input} {ds : List (Did App)} (hallowed : Allowed TokenStep LinksLast p₀.store p)
    (hok : NoneCreatedSince p ev) (hev : executes ev = some i) (hr : p.live i = some r)
    (hex : Executes p p' r (.issueLoginLinkCreate entertainerId) w)
    (hfirst : SupersedesFirst r.label (r.log ++ ds))
    (hmem : .stmt (.issueLoginLinkCreate entertainerId) w p.store p'.store ∈ ds)
    (hds : ∀ w s s', .stmt (.issueLoginLinkSupersede entertainerId) w s s' ∉ ds) :
    ∀ t ∈ p.store.loginTokens.rows, t.entertainerId = entertainerId → Used t.id p.store := by
  intro t ht he
  obtain ⟨eff, k, hprog, -⟩ := hex
  obtain ⟨w₁, s₁, s₁', hsupersede, hused⟩ := hfirst entertainerId w _ _ (List.mem_append_right _ hmem)
  rcases List.mem_append.mp hsupersede with hsupersede | hnow
  · obtain ⟨t₀, ht₀, hid, he₀⟩ := hok i r entertainerId eff k hev hr hprog w₁ s₁ s₁' hsupersede t ht he
    obtain ⟨-, -, hlast⟩ := hallowed.between r (Monitor.mem_of_live hr) _ _ _ _ hsupersede
    rw [← hid]
    exact (hused t₀ ht₀ he₀).lasts hlast
  · exact absurd hnow (hds w₁ s₁ s₁')

/-- What holds as long as links are created in turn. -/
structure InTurn (p : Pool App LoginCall Unit) : Prop where
  outstanding : OneOutstanding p.store
  created : ∀ r ∈ p.runs, ∀ e w s s', .stmt (.issueLoginLinkCreate e) w s s' ∈ r.log →
    ∀ t ∈ s.loginTokens.rows, t.entertainerId = e → Used t.id p.store

lemma logins_record (hruns : p₀.runs = []) (h : Reach (logins hashToken config) ok p₀ p) :
    ∀ r ∈ p.runs, SupersedesFirst r.label r.log :=
  recorded (fun _ => supersedesFirst_nil) (fun _ ds d hcame hds => hds.snoc fun e w s s' hd => by subst hd; cases hcame)
    (fun l => records_of_reports (@program_reports hashToken config l)) hruns h

theorem inTurn_step (hallowed : Allowed TokenStep LinksLast p₀.store p) (horder : LinksLast p.store p'.store)
    (hfirst : ∀ r ∈ p'.runs, SupersedesFirst r.label r.log) (h : InTurn p) (hok : NoneCreatedSince p ev)
    (hs : step (logins hashToken config) p ev = some p') : InTurn p' := by
  -- the others' links are used when a statement creates one
  have hused : ∀ {i : ℕ} {r r' : Run App LoginCall} {ds : List (Did App)} {e : Uuid} {w : Input}, p.live i = some r →
      r' ∈ p'.runs → Continues r r' ds → executes ev = some i → Executes p p' r (.issueLoginLinkCreate e) w →
      (ds = [.stmt (.issueLoginLinkCreate e) w p.store p'.store] ∨
        ∃ err, ds = [.stmt (.issueLoginLinkCreate e) w p.store p'.store, .failed (.issueLoginLinkCreate e) err]) →
      ∀ t ∈ p.store.loginTokens.rows, t.entertainerId = e → Used t.id p.store := by
    intro i r r' ds e w hr hr' hgoes hev hex hds
    have hlog := hfirst r' hr'
    rw [hgoes.log, hgoes.label] at hlog
    refine used_where_created hallowed hok hev hr hex hlog ?_ fun w₁ s₁ s₁' hmem => ?_
    · rcases hds with rfl | ⟨err, rfl⟩ <;> simp
    · rcases hds with rfl | ⟨err, rfl⟩ <;> simp at hmem
  refine ⟨?_, fun r' hr' e w s s' hmem t ht he => ?_⟩
  · cases step_concerns hs with
    | start l hev hruns hstore => exact hstore ▸ h.outstanding
    | goes i r r' ds htells hr hruns hgoes hadds =>
      have hr' : r' ∈ p'.runs := hruns ▸ Monitor.mem_put hr
      cases hadds with
      | stmt nm w hev hex =>
        exact outstanding_step h.outstanding (hallowed.executes hr hex) fun e hsite => by
          subst hsite
          exact hused hr hr' hgoes hev hex (.inl rfl)
      | lost nm w err hev hex =>
        exact outstanding_step h.outstanding (hallowed.executes hr hex) fun e hsite => by
          subst hsite
          exact hused hr hr' hgoes hev hex (.inr ⟨err, rfl⟩)
      | failed hstore | asked hstore | answered hstore | nothing hstore => exact hstore ▸ h.outstanding
    | move v hev hruns =>
      subst hev
      obtain ⟨db, x, hv, rfl⟩ := step_move hs
      cases hv
      exact h.outstanding
  · obtain ⟨j, hj⟩ := List.getElem?_of_mem hr'
    have hbefore : ∀ r ∈ p.runs, .stmt (.issueLoginLinkCreate e) w s s' ∈ r.log → Used t.id p'.store := fun r hr hmem =>
      (h.created r hr e w s s' hmem t ht he).lasts horder
    rcases step_run hs hj with ⟨hold, -⟩ | ⟨l, -, -, rfl⟩ | ⟨r, ds, hr, hgoes, hadds⟩
    · exact hbefore r' (List.mem_of_getElem? hold) hmem
    · cases hmem
    rw [hgoes.log, List.mem_append] at hmem
    rcases hmem with hmem | hmem
    · exact hbefore r (Monitor.mem_of_live hr) hmem
    · obtain ⟨rfl, rfl⟩ := hadds.stmt_mem hmem
      cases hadds with
      | stmt nm w' hev hex =>
        obtain ⟨rfl, rfl, -⟩ := Did.stmt.inj (List.mem_singleton.mp hmem)
        exact (hused hr hr' hgoes hev hex (.inl rfl) t ht he).lasts horder
      | lost nm w' err hev hex =>
        simp only [List.mem_cons, Did.stmt.injEq, List.not_mem_nil, reduceCtorEq, or_false] at hmem
        obtain ⟨rfl, rfl, -⟩ := hmem
        exact (hused hr hr' hgoes hev hex (.inr ⟨err, rfl⟩) t ht he).lasts horder
      | failed | asked | answered | nothing => simp at hmem

theorem logins_inTurn (hruns : p₀.runs = []) (hone : OneOutstanding p₀.store)
    (h : Reach (logins hashToken config) NoneCreatedSince p₀ p) : InTurn p := by
  induction h with
  | refl => exact ⟨hone, fun r hr => by simp [hruns] at hr⟩
  | step ev hreach hok hs ih =>
    have hallowed := logins_allowed hruns hreach
    exact inTurn_step hallowed (logins_order hallowed hs) (logins_record hruns (hreach.step ev hok hs)) ih hok hs

/-- In every allowed run, issuing a link invalidates those issued before. -/
def AlwaysInvalidates (hashToken : String → String) (config : Config)
    (ok : Pool App LoginCall Unit → Event App LoginCall Db → Prop) (p₀ : Pool App LoginCall Unit) : Prop :=
  ∀ p, Reach (logins hashToken config) ok p₀ p → EarlierInvalid hashToken config p

/-- **Issuing a link invalidates those issued before**, as long as no link of the entertainer is created between a
call's superseding of the others and its creation of its own. -/
theorem earlier_links_invalid (hruns : p₀.runs = []) (hone : OneOutstanding p₀.store) :
    AlwaysInvalidates hashToken config NoneCreatedSince p₀ := by
  intro p h
  have hturn := logins_inTurn hruns hone h
  have hallowed := logins_allowed hruns h
  refine ⟨hturn.outstanding, fun r hr e x hissued t ht he p' hreach i r' token hr' hredeemed hhash => ?_⟩
  have hcreate : .stmt (.issueLoginLinkCreate e) x.create.1 x.create.2.1 x.create.2.2 ∈ r.log := by
    rw [hissued.2.2]
    simp [Issue.log]
  have hused : Used t.id p.store := hturn.created r hr e _ _ _ hcreate t ht he
  have hall : Reach (logins hashToken config) anyEvent p₀ p' := h.any.trans hreach
  refine hasUsed_of_used hallowed hused hreach ⟨r', hr', ?_⟩
  -- the link redeemed is the one the call had found
  have hallowed' := logins_allowed hruns hall
  obtain ⟨y, hlog, hvalid⟩ := redeemed_report hruns hall (List.mem_of_getElem? hr') hredeemed
  obtain ⟨t₁, ht₁, hpersists₁⟩ := Redemption.persists hallowed' (List.mem_of_getElem? hr') hlog hvalid
  obtain ⟨-, hnext, hlast⟩ := hallowed.between r hr _ _ _ _ hcreate
  obtain ⟨t₂, ht₂, hpersists₂⟩ := ((hnext.trans hlast).trans (logins_last hallowed hreach).2) t ht
  have hsame : t₁ = t₂ := token_eq_of_hash ht₁ ht₂ <| by
    rw [hpersists₁.tokenHash, hpersists₂.tokenHash, hvalid.tokenHash, hhash]
  have hid : y.candidate.id = t.id := by rw [← hpersists₁.id, ← hpersists₂.id, hsame]
  exact ⟨.redeemClaim y.candidate.id, y.claim.1, y.claim.2.1, y.claim.2.2, by rw [hlog]; simp [Redemption.log],
    hid ▸ hvalid.uses⟩

theorem earlier_links_invalid_sample : AlwaysInvalidates id localhost NoneCreatedSince ⟨entertainerDb, (), []⟩ :=
  earlier_links_invalid rfl fun _ ht => by cases ht

/-! ### Two calls at once -/

/-- Both use up the links there are before either creates its own. -/
def issuedTogether : List (Event App LoginCall Db) :=
  [.start (.issueLoginLink (Money.uid 3)), .start (.issueLoginLink (Money.uid 3))] ++ Money.execs 0 [1, 2] ++
    [.exec 1 (Money.inputAt 3), .exec 1 { Money.inputAt 4 with randomBytes := "another" }] ++
    Money.execs 0 [5] ++ Money.execs 1 [6, 7] ++ Money.execs 0 [8]

/-- Two links of an entertainer are unused. -/
def twoOutstanding (db : Db) : Bool :=
  db.loginTokens.rows.any fun t => db.loginTokens.rows.any fun t' =>
    t.entertainerId == t'.entertainerId && t.consumedAt.isNone && t'.consumedAt.isNone && t != t'

theorem overlapping_issues : ¬AlwaysInvalidates id localhost anyEvent ⟨entertainerDb, (), []⟩ := by
  intro h
  have hrun : ((run (logins id localhost) ⟨entertainerDb, (), []⟩ issuedTogether).any fun p =>
      twoOutstanding p.store) = true := by
    decide +kernel
  obtain ⟨p, hp, htwo⟩ := (Option.any_eq_true _ _).mp hrun
  simp only [twoOutstanding, List.any_eq_true, Bool.and_eq_true, beq_iff_eq, bne_iff_ne,
    Option.isNone_iff_eq_none] at htwo
  obtain ⟨t, ht, t', ht', ⟨⟨he, hunused⟩, hunused'⟩, hne⟩ := htwo
  exact hne ((h p (reach_of_run (along_any _) hp)).outstanding t ht t' ht' he hunused hunused')

end Splitcore.EntertainerAuth
