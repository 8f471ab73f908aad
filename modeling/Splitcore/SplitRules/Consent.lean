import Splitcore.SplitRules.InForce

/-!
The life of a rule, and the consent behind it.

At most one answer takes effect for a proposal, and a proposed rule came into force only by an
acceptance with the token it was made with.
-/

namespace Splitcore.SplitRules

open Relational Isolation

variable {hashToken : String → String} {p p' p₀ : Pool Rules Operation}

/-- A call to `respond` that took effect. -/
def TookEffect (c : Session Rules Operation) (id : Uuid) (token : String) (decision : Decision) : Prop :=
  c.phase = .committed ∧ c.label = .respond id token decision

/-- The call found the proposal open, and its token hashes to what was stored on it. -/
def Consented (hashToken : String → String) (c : Session Rules Operation) (id : Uuid)
    (token : String) : Prop :=
  ∃ w ∈ c.work.writes, ∃ r, w.before = some r ∧ r.id = id ∧ r.status = OPEN_PROPOSAL ∧
    r.responseTokenHash = some (hashToken token) ∧ w.after.status = .ACTIVE

/-- What is known of answers that took effect: each was the only one for its proposal, which is
open no more; and a proposed rule that came into force was accepted. -/
structure Answers (p : Pool Rules Operation) : Prop where
  closed : ∀ (i : ℕ) (c : Session Rules Operation) id token decision, p.sessions[i]? = some c →
    TookEffect c id token decision → ∃ r, p.store.row id = some r ∧ r.status ≠ OPEN_PROPOSAL
  once : ∀ (i j : ℕ) (c d : Session Rules Operation) id token decision token' decision',
    p.sessions[i]? = some c → p.sessions[j]? = some d → TookEffect c id token decision →
    TookEffect d id token' decision' → i = j
  accepted : ∀ r ∈ p.store.table.rows, r.origin = .VENUE_PROPOSAL → HasBeenActive r →
    ∃ (i : ℕ) (c : Session Rules Operation) (token : String), p.sessions[i]? = some c ∧
      TookEffect c r.id token .ACCEPT

lemma answers_start (h : Migrated p) : Answers p := by
  refine ⟨fun i c id token decision hc => ?_, fun i j c d id token decision token' decision' hc => ?_,
    fun r hr horigin => ?_⟩
  · simp [h.idle] at hc
  · simp [h.idle] at hc
  · cases (h.rules r hr).1.symm.trans horigin

/-- A rule in a later store that is not an open proposal was none before it was one. -/
lemma closed_later {s s' : Store Rules} {id : Uuid} (h : Later s s')
    (hclosed : ∃ r, s.row id = some r ∧ r.status ≠ OPEN_PROPOSAL) :
    ∃ r, s'.row id = some r ∧ r.status ≠ OPEN_PROPOSAL := by
  obtain ⟨r, hr, hne⟩ := hclosed
  obtain ⟨r', hr', hevolves⟩ := h id r hr
  exact ⟨r', hr', fun hopen => hne (open_of_reaches (hopen ▸ hevolves.status))⟩

/-- **A turn keeps what is known of answers.** -/
theorem answers_turn {ev : Event Rules Operation} (hsteady : Steady (lifecycle hashToken) p)
    (h : Answers p) (hs : step (Operation.call hashToken) p ev = some p')
    (hturns : Turns (lifecycle hashToken) p ev p') : Answers p' := by
  have hlater : Later p.store p'.store := hturns.later hsteady.inv
  have hkept : ∀ r₀ r : SplitRule, r₀ ∈ p.store.table.rows → r₀.id = r.id →
      r₀.origin = .VENUE_PROPOSAL → HasBeenActive r₀ →
      ∃ (i : ℕ) (c : Session Rules Operation) (token : String), p'.sessions[i]? = some c ∧
        TookEffect c r.id token .ACCEPT := by
    intro r₀ r hr₀ hid horigin hactive
    obtain ⟨i, c, token, hc, heffect⟩ := h.accepted r₀ hr₀ horigin hactive
    exact ⟨i, c, token, committed_step hs hc heffect.1, hid ▸ heffect⟩
  -- nothing committed
  have hsame : p'.store.table = p.store.table → (∀ (j : ℕ) (d : Session Rules Operation),
      p'.sessions[j]? = some d → d.phase = .committed → p.sessions[j]? = some d) → Answers p' := by
    intro hstore hold
    refine ⟨fun i c id token decision hc heffect => ?_, fun i j c d id token decision token' decision'
      hc hd heffect heffect' => ?_, fun r hr horigin hactive => ?_⟩
    · exact closed_later hlater (h.closed i c id token decision (hold i c hc heffect.1) heffect)
    · exact h.once i j c d id token decision token' decision' (hold i c hc heffect.1)
        (hold j d hd heffect'.1) heffect heffect'
    · exact hkept r r (hstore ▸ hr) rfl horigin hactive
  cases hturns with
  | same hstore hold => exact hsame (by rw [hstore]) hold
  | others r hstore hsessions => exact hsame (by rw [hstore]) fun j d hd _ => hsessions ▸ hd
  | commits i w c c' hev hc hret hsees hdoes hsessions hlabel hwork hphase =>
    have hdoes : Does hashToken c.label c.work := hdoes
    have hi : i < p.sessions.length := (List.getElem?_eq_some_iff.mp (running_eq_some.mp hc).1).1
    have hnew : p'.sessions[i]? = some c' := by rw [hsessions]; exact List.getElem?_set_self hi
    have hfrom : ∀ (j : ℕ) (d : Session Rules Operation), p'.sessions[j]? = some d →
        j = i ∧ d = c' ∨ p.sessions[j]? = some d := by
      intro j d hd
      rw [hsessions, List.getElem?_set] at hd
      split at hd
      · rename_i hij
        simp only [Option.some.injEq] at hd
        exact .inl ⟨hij.symm, hd.symm⟩
      · exact .inr hd
    -- the proposal that the call answered, before and after
    have hanswer : ∀ id token decision, TookEffect c' id token decision →
        (∃ r, p.store.row id = some r ∧ r.status = OPEN_PROPOSAL) ∧
        ∃ r, p'.store.row id = some r ∧ r.status ≠ OPEN_PROPOSAL := by
      intro id token decision heffect
      obtain ⟨w, hw, r, now, hb, hid, hafter, hopen, -⟩ :=
        hdoes.answers id token decision (hlabel.symm.trans heffect.2)
      have hwid : Rules.id w.after = id := by
        rw [hafter, ← hid]
        cases decision <;> rfl
      refine ⟨⟨r, ?_, hopen⟩, w.after, ?_, ?_⟩
      · rw [← hwid]; exact hsees.held.current w hw r hb
      · rw [← hwid]; exact hsees.row_of_mem hw
      · rw [hafter]
        cases decision <;> nofun
    refine ⟨fun j d id token decision hd heffect => ?_, fun j l d e id token decision token' decision'
      hd he heffect heffect' => ?_, fun r hr horigin hactive => ?_⟩
    · rcases hfrom j d hd with ⟨-, rfl⟩ | hold
      · exact (hanswer id token decision heffect).2
      · exact closed_later hlater (h.closed j d id token decision hold heffect)
    · have hfresh : ∀ (m : ℕ) (f : Session Rules Operation) token decision, p.sessions[m]? = some f →
          TookEffect f id token decision → ∀ token' decision', ¬ TookEffect c' id token' decision' := by
        intro m f token decision hf heffect token' decision' hnew
        obtain ⟨r, hr, hne⟩ := h.closed m f id token decision hf heffect
        obtain ⟨r', hr', hopen⟩ := (hanswer id token' decision' hnew).1
        rw [hr, Option.some.injEq] at hr'
        exact hne (hr' ▸ hopen)
      rcases hfrom j d hd with ⟨hj, rfl⟩ | hold <;> rcases hfrom l e he with ⟨hl, rfl⟩ | hold'
      · rw [hj, hl]
      · exact absurd heffect (hfresh l e token' decision' hold' heffect' token decision)
      · exact absurd heffect' (hfresh j d token decision hold heffect token' decision')
      · exact h.once j l d e id token decision token' decision' hold hold' heffect heffect'
    · rcases hdoes.source hsees hr with ⟨hold, -⟩ | ⟨w, hw, rfl, ⟨-, hcreated⟩ | ⟨r₀, hr₀, -, hchanged⟩⟩
      · exact hkept r r hold rfl horigin hactive
      · -- a new rule is an open proposal, or an override
        generalize w.after = r at hcreated horigin hactive
        generalize c.label = op at hcreated
        cases hcreated with
        | proposed => rcases hactive with hactive | hactive <;> cases hactive
        | overriding => cases horigin
      · have hevolves := hchanged.evolves
        have hid : r₀.id = w.after.id := hevolves.id.symm
        have horigin₀ : r₀.origin = .VENUE_PROPOSAL :=
          (congrArg (·.2.1) hevolves.terms).symm.trans horigin
        generalize w.after = r at hchanged hid horigin hactive ⊢
        generalize hop : c.label = op at hchanged
        cases hchanged with
        | withdrawn hopen => rcases hactive with hactive | hactive <;> cases hactive
        | answered hid₀ hopen htoken =>
          rename_i id token decision now
          cases decision with
          | ACCEPT => exact ⟨i, c', token, hnew, hphase, by rw [hlabel, hop, ← hid, hid₀]⟩
          | REJECT => rcases hactive with hactive | hactive <;> cases hactive
        | superseded hactive₀ => exact hkept r₀ _ hr₀ hid horigin₀ hactive₀

/-! ### The life of a rule -/

/-- What a run leaves of the rules, with all that can happen to them next. -/
structure Lived (hashToken : String → String) (p : Pool Rules Operation) : Prop where
  changes : ∀ ev p', step (Operation.call hashToken) p ev = some p' → ∀ r ∈ p.store.table.rows,
    ∃ r' ∈ p'.store.table.rows, r'.id = r.id ∧ terms r' = terms r ∧
      (r'.status = r.status ∨ Transition r.status r'.status)
  once : ∀ (i j : ℕ) (c d : Session Rules Operation) id token decision token' decision',
    p.sessions[i]? = some c → p.sessions[j]? = some d → TookEffect c id token decision →
    TookEffect d id token' decision' → i = j
  consent : ∀ r ∈ p.store.table.rows, r.origin = .VENUE_PROPOSAL → HasBeenActive r →
    ∃ c ∈ p.sessions, ∃ token, TookEffect c r.id token .ACCEPT ∧ Consented hashToken c r.id token
  final : ∀ p', Reach (Operation.call hashToken) anyEvent p p' → ∀ r ∈ p.store.table.rows,
    r.status = .REJECTED ∨ r.status = .WITHDRAWN →
    ∃ r' ∈ p'.store.table.rows, r'.id = r.id ∧ r'.status = r.status
  effective : ∀ r ∈ p.store.table.rows, r.effectiveFrom ≠ none ↔ HasBeenActive r

/-- One event changes a rule by one transition at most. -/
lemma changes_turn {ev : Event Rules Operation} (h : Turns (lifecycle hashToken) p ev p')
    {r : SplitRule} (hr : r ∈ p.store.table.rows) :
    ∃ r' ∈ p'.store.table.rows, r'.id = r.id ∧ terms r' = terms r ∧
      (r'.status = r.status ∨ Transition r.status r'.status) := by
  cases h with
  | same hstore hold => exact ⟨r, hstore ▸ hr, rfl, rfl, .inl rfl⟩
  | others r₀ hstore hsessions => exact ⟨r, hstore ▸ hr, rfl, rfl, .inl rfl⟩
  | commits i w c c' hev hc hret hsees hdoes hsessions hlabel hwork hphase =>
    have hdoes : Does hashToken c.label c.work := hdoes
    obtain ⟨r', hr', rfl | hchanged⟩ := hdoes.row hsees (row_of_mem hr)
    · exact ⟨r', mem_rows_of_row hr', rfl, rfl, .inl rfl⟩
    · exact ⟨r', mem_rows_of_row hr', hchanged.evolves.id, hchanged.evolves.terms, hchanged.transition⟩

/-- An acceptance that took effect was made with the token of an open proposal. -/
lemma Does.consented {c : Session Rules Operation} {id : Uuid} {token : String}
    (h : Does hashToken c.label c.work) (heffect : TookEffect c id token .ACCEPT) :
    Consented hashToken c id token := by
  obtain ⟨w, hw, r, now, hb, hid, hafter, hopen, htoken⟩ := h.answers id token .ACCEPT heffect.2
  exact ⟨w, hw, r, hb, hid, hopen, htoken, by rw [hafter]; rfl⟩

/-- **The life of a rule, and the consent behind it**, in every run. -/
theorem lifecycle_and_consent (hashToken : String → String) (h : Migrated p₀)
    (hreach : Reach (Operation.call hashToken) anyEvent p₀ p) : Lived hashToken p := by
  have hentry : ∀ op s, (lifecycle hashToken).Inv s → Keeps hashToken
      (fun _ k _ => Does hashToken op k) (op.call hashToken) s {} := fun op s _ => call_keeps op s
  obtain ⟨hsteady, hanswers⟩ := steady_reach hentry (P := Answers) h.steady (answers_start h) hreach
    fun _ _ _ hsteady hanswers _ hs hturns => answers_turn hsteady hanswers hs hturns
  refine ⟨fun ev p' hs r hr => ?_, hanswers.once, fun r hr horigin hactive => ?_,
    fun p' hlater r hr hfinal => ?_, fun r hr => (hsteady.inv r hr).begins⟩
  · exact changes_turn (steady_step hentry hsteady hs).2 hr
  · obtain ⟨i, c, token, hc, heffect⟩ := hanswers.accepted r hr horigin hactive
    have hmem : c ∈ p.sessions := List.mem_of_getElem? hc
    have hdoes : Does hashToken c.label c.work := hsteady.done c hmem heffect.1
    exact ⟨c, hmem, token, heffect, hdoes.consented heffect⟩
  · have hevolves : Later p.store p'.store :=
      (steady_reach hentry (P := fun q => Later p.store q.store) hsteady
        ((lifecycle hashToken).refl _) hlater fun _ _ _ hsteady hsofar _ _ hturns =>
          (lifecycle hashToken).trans hsofar (hturns.later hsteady.inv)).2
    obtain ⟨r', hr', hevolved⟩ := hevolves r.id r (row_of_mem hr)
    exact ⟨r', mem_rows_of_row hr', hevolved.id, final_status hevolved.status hfinal⟩

/-- The venue with an entertainer who performs there. -/
def performing : Pool Rules Operation :=
  ⟨⟨⟨[Money.sampleRule], Money.sampleRule_keys⟩, [], ⟨none, ⟨[Money.sampleEntertainer], Money.sampleEntertainer_keys⟩,
    ⟨[⟨Money.uid 7, Money.uid 2, Money.uid 3⟩], by decide⟩⟩⟩, []⟩

lemma performing_migrated : Migrated performing :=
  ⟨rfl, fun r hr => by rw [List.mem_singleton.mp hr]; decide⟩

/-- The entertainer agrees to what the venue proposes. -/
def agreement : List (Event Rules Operation) :=
  [.start (.propose ⟨Money.uid 2, Money.uid 3, 7000, 2500⟩ (Money.uid 9))] ++
    execs 0 [1, 2, 3, 4, 5, 6, 7, 8] ++ [.start (.respond (Money.uid 6000) "token4" .ACCEPT)] ++
    execs 1 [9, 10, 11, 12, 13, 14, 15, 16, 17]

theorem lifecycle_and_consent_sample : ∃ p, run (Operation.call id) performing agreement = some p ∧
    Lived id p ∧ (p.store.table.rows.map fun r => (r.origin, r.status)) =
      [(.ADMIN_OVERRIDE, .SUPERSEDED), (.VENUE_PROPOSAL, .ACTIVE)] := by
  obtain ⟨p, hp, hrows⟩ := (Option.any_eq_true _ _).mp
    (by decide +kernel : ((run (Operation.call id) performing agreement).any fun p =>
      decide ((p.store.table.rows.map fun r => (r.origin, r.status)) =
        [(.ADMIN_OVERRIDE, .SUPERSEDED), (.VENUE_PROPOSAL, .ACTIVE)])) = true)
  exact ⟨p, hp, lifecycle_and_consent id performing_migrated (reach_of_run hp), of_decide_eq_true hrows⟩

end Splitcore.SplitRules
