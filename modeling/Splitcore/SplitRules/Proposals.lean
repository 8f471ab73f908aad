import Splitcore.Isolation.Promises
import Splitcore.SplitRules.Consent

/-!
The open proposals of a venue: never two, as long as none is committed while another proposal is
being made.
-/

namespace Splitcore.SplitRules

open Relational Isolation

variable {hashToken : String → String} {s s' : Store Rules} {k : Work Rules} {venueId : Uuid}
  {op : Operation} {p p' p₀ : Pool Rules Operation}

/-- An open proposal that a consent link can still answer. -/
def Answerable (venueId : Uuid) (r : SplitRule) : Prop :=
  r.venueId = venueId ∧ r.status = OPEN_PROPOSAL ∧ r.responseTokenHash ≠ none

instance (venueId : Uuid) (r : SplitRule) : Decidable (Answerable venueId r) :=
  inferInstanceAs (Decidable (_ ∧ _))

lemma Answerable.isOpen {r : SplitRule} (h : Answerable venueId r) : isOpen venueId r = true := by
  simp [SplitRules.isOpen, h.1, h.2.1]

/-- What is open was open. -/
lemma Evolves.isOpen {r r' : SplitRule} (h : Evolves r r') (hopen : isOpen venueId r' = true) :
    isOpen venueId r = true := by
  simp only [SplitRules.isOpen, Bool.and_eq_true, beq_iff_eq] at hopen ⊢
  exact ⟨(congrArg Prod.fst h.terms).symm.trans hopen.1, open_of_reaches (hopen.2 ▸ h.status)⟩

/-! ### What a proposal looked at -/

/-- What was there when a proposal looked for open ones it withdrew, or it is open no more; and it
makes one rule. -/
structure Looked (venueId : Uuid) (s : Store Rules) (k : Work Rules) : Prop where
  seen : ∃ view, (Site.openProposals venueId, view) ∈ k.reads ∧ ∀ r ∈ view.table.rows,
    k.wrote r.id ≠ none ∨ ∃ r', s.row r.id = some r' ∧ isOpen venueId r' = false
  single : ∀ w ∈ k.writes, ∀ w' ∈ k.writes, w.before = none → w'.before = none → w = w'

/-- A row that was not open by then stays so. -/
lemma Later.not_open (h : Later s s') {id : Uuid} (hrow : ∃ r, s.row id = some r ∧ isOpen venueId r = false) :
    ∃ r, s'.row id = some r ∧ isOpen venueId r = false := by
  obtain ⟨r, hr, hopen⟩ := hrow
  obtain ⟨r', hr', hevolves⟩ := h id r hr
  refine ⟨r', hr', ?_⟩
  by_contra hne
  rw [Bool.not_eq_false] at hne
  rw [hevolves.isOpen hne] at hopen
  cases hopen

theorem propose_looks {dto : CreateSplitRuleDto} {user : Uuid} :
    Keeps hashToken (fun s k _ => Looked dto.venueId s k) (propose hashToken dto user) s {} := by
  refine obeys_query fun w₁ s₁ v₁ _ _ _ => ?_
  simp only
  split
  · trivial
  refine obeys_query fun w₂ s₂ v₂ _ _ _ => ?_
  split
  · trivial
  refine obeys_query fun w₃ s₃ v₃ _ _ _ => ?_
  split
  · trivial
  refine obeys_query fun w₄ s₄ v₄ _ _ _ => ?_
  refine obeys_bind.mpr (obeys_query fun w₅ s₅ v₅ _ _ hsees₅ => ?_)
  have hids : ((v₅.table.rows.filter (isOpen dto.venueId)).map Rules.id).Nodup := nodup_ids _ _
  refine Obeys.mono (obeys_updateEach (f := withdraw) (fun _ => rfl) hids fun id _ => rfl) ?_
  rintro s₆ k₆ n ⟨hlater₆, hreads, -, rows, hrows, hwrites, hall⟩
  refine obeys_insert fun w s' v hlater' _ hsees hfree => obeys_note fun w' => ?_
  have hnew : ∀ w₀ ∈ k₆.writes, w₀.after.id ≠ w.uuid := wrote_eq_none.mp (hsees.wrote_none hfree)
  refine ⟨⟨v₅, ?_, fun r hr => ?_⟩, fun w₀ hw₀ w₀' hw₀' hb hb' => ?_⟩
  · show _ ∈ k₆.reads
    rw [hreads]; simp
  · -- withdrawn, or not open at its turn, or not open when it was looked at
    have hrow₅ : s₅.row r.id = some r := by
      have hrow : v₅.row r.id = some r := row_of_mem hr
      rw [hsees₅.row] at hrow
      exact hrow
    have hlater₅ : Later s₅ s' := (lifecycle hashToken).trans hlater₆ hlater'
    rcases hopen : isOpen dto.venueId r with _ | _
    · exact .inr (Later.not_open hlater₅ ⟨r, hrow₅, hopen⟩)
    have hid : r.id ∈ (v₅.table.rows.filter (isOpen dto.venueId)).map Rules.id :=
      List.mem_map_of_mem (List.mem_filter.mpr ⟨hr, hopen⟩)
    rcases hall r.id hid with hmem | ⟨s₁, h₁, h₁', hclosed⟩
    · left
      obtain ⟨r', hr', hid'⟩ := List.mem_map.mp hmem
      refine fun hnone => wrote_eq_none.mp hnone ⟨some r', withdraw r'⟩ ?_ hid'
      show _ ∈ record k₆.writes _
      rw [record_of_new hnew, hwrites]
      exact List.mem_append_left _ (mem_versions.mpr ⟨r', hr', rfl⟩)
    · right
      obtain ⟨r₁, hr₁, -⟩ := h₁ r.id r hrow₅
      exact Later.not_open ((lifecycle hashToken).trans h₁' hlater') ⟨r₁, hr₁, hclosed r₁ hr₁⟩
  · have hcreated : ∀ x : Write Rules, ∀ w₁ ∈ versions withdraw rows ++ [x], w₁.before = none →
        w₁ = x := by
      intro x w₁ hw₁ hb₁
      rcases List.mem_append.mp hw₁ with hold | hnew
      · obtain ⟨r, -, rfl⟩ := mem_versions.mp hold
        cases hb₁
      · exact List.mem_singleton.mp hnew
    replace hw₀ : w₀ ∈ record k₆.writes _ := hw₀
    replace hw₀' : w₀' ∈ record k₆.writes _ := hw₀'
    rw [record_of_new hnew, hwrites] at hw₀ hw₀'
    exact (hcreated _ w₀ hw₀ hb).trans (hcreated _ w₀' hw₀' hb').symm

/-- What a call has looked at by its end. -/
def LookedIf (op : Operation) (s : Store Rules) (k : Work Rules) : Prop :=
  ∀ dto user, op = .propose dto user → Looked dto.venueId s k

theorem call_looks (op : Operation) (s : Store Rules) :
    Keeps hashToken (fun s k _ => LookedIf op s k) (op.call hashToken) s {} := by
  -- only proposals look
  have hother : ∀ {c : Call Rules Unit} {s : Store Rules} {k : Work Rules},
      (∀ dto user, op ≠ .propose dto user) → Keeps hashToken (fun _ k _ => Does hashToken op k) c s k →
      Keeps hashToken (fun s k _ => LookedIf op s k) c s k :=
    fun hne h => h.mono fun _ _ _ _ dto user hop => absurd hop (hne dto user)
  cases op with
  | propose dto user =>
    refine obeys_bind.mpr (propose_looks.mono fun s k _ hlooked => ?_)
    intro dto' user' hop
    cases hop
    exact hlooked
  | override dto user => exact hother (fun _ _ h => by cases h) (call_keeps _ s)
  | respond id token decision => exact hother (fun _ _ h => by cases h) (call_keeps _ s)

/-! ### Runs -/

/-- No venue has two proposals that a consent link can still answer. -/
def OneProposal (s : Store Rules) : Prop :=
  ∀ venueId, ∀ r ∈ s.table.rows, ∀ r' ∈ s.table.rows, Answerable venueId r → Answerable venueId r' → r = r'

/-- When a proposal commits, the open proposals of its venue were there when it looked for them. -/
def NoneSince (p : Pool Rules Operation) (ev : Event Rules Operation) : Prop :=
  ∀ i w c, ev = .exec i w → p.running i = some c → c.call = .ret () →
    ∀ venueId view, (Site.openProposals venueId, view) ∈ c.work.reads →
      ∀ r ∈ p.store.table.rows, isOpen venueId r = true → ∃ r₀ ∈ view.table.rows, r₀.id = r.id

/-- No run gets a venue two proposals that can still be answered. -/
def NeverTwoProposals (hashToken : String → String)
    (ok : Pool Rules Operation → Event Rules Operation → Prop) (p₀ : Pool Rules Operation) : Prop :=
  ∀ p, Reach (Operation.call hashToken) ok p₀ p → OneProposal p.store

/-- A proposal that a call wrote is one that it made. -/
lemma Does.proposes (h : Does hashToken op k) {w : Write Rules} (hw : w ∈ k.writes)
    (hopen : Answerable venueId w.after) :
    w.before = none ∧ ∃ dto user, op = .propose dto user ∧ dto.venueId = venueId := by
  rcases hb : w.before with _ | r
  · have hcreated := h.created w hw hb
    generalize w.after = r' at hcreated hopen
    cases hcreated with
    | proposed => exact ⟨rfl, _, _, rfl, hopen.1⟩
    | overriding => cases hopen.2.1
  · have hchanged := h.changed w hw r hb
    generalize w.after = r' at hchanged hopen
    cases hchanged with
    | withdrawn => cases hopen.2.1
    | answered =>
      rename_i decision _ _ _ _
      cases decision <;> cases hopen.2.1
    | superseded => cases hopen.2.1

/-- **A turn leaves a venue one proposal**, if none was committed behind the call's back. -/
theorem oneProposal_turn {ev : Event Rules Operation} (h : Turns (lifecycle hashToken) p ev p')
    (hlooks : Promises (lifecycle hashToken) LookedIf p) (hone : OneProposal p.store)
    (hok : NoneSince p ev) : OneProposal p'.store := by
  cases h with
  | same hstore hold => rw [hstore]; exact hone
  | others r hstore hsessions => rw [hstore]; exact hone
  | commits i w c c' hev hc hret hsees hdoes hsessions hlabel hwork hphase =>
    have hdoes : Does hashToken c.label c.work := hdoes
    obtain ⟨s, hlater, hlooked⟩ := hlooks.ended hc hret
    intro venueId r hr r' hr' hopen hopen'
    -- a proposal the call did not write, beside one that it made, would have been withdrawn
    have hwithdrawn : ∀ w ∈ c.work.writes, Answerable venueId w.after → ∀ r ∈ p.store.table.rows,
        Answerable venueId r → c.work.wrote r.id ≠ none := by
      intro w hw hopen r hr hopen' hnone
      obtain ⟨-, dto, user, hop, rfl⟩ := hdoes.proposes hw hopen
      obtain ⟨view, hview, hseen⟩ := (hlooked dto user hop).seen
      obtain ⟨r₀, hr₀, hid⟩ := hok i _ c hev hc hret _ view hview r hr hopen'.isOpen
      rcases hseen r₀ hr₀ with hwrote | hclosed
      · exact hwrote (hid ▸ hnone)
      · obtain ⟨r₁, hr₁, hnot⟩ := Later.not_open hlater hclosed
        rw [hid, show p.store.row r.id = some r from row_of_mem hr] at hr₁
        cases hr₁
        exact absurd (hopen'.isOpen.symm.trans hnot) nofun
    rcases hdoes.source hsees hr with ⟨hold, hnone⟩ | ⟨w, hw, rfl, -⟩ <;>
      rcases hdoes.source hsees hr' with ⟨hold', hnone'⟩ | ⟨w', hw', rfl, -⟩
    · exact hone venueId r hold r' hold' hopen hopen'
    · exact absurd hnone (hwithdrawn w' hw' hopen' r hold hopen)
    · exact absurd hnone' (hwithdrawn w hw hopen r' hold' hopen')
    · obtain ⟨hb, dto, user, hop, -⟩ := hdoes.proposes hw hopen
      obtain ⟨hb', -⟩ := hdoes.proposes hw' hopen'
      rw [(hlooked dto user hop).single w hw w' hw' hb hb']

/-- **A venue never has two proposals that can still be answered**, as long as none is committed
between a proposal's look at the open ones and its commit. -/
theorem never_two_proposals (h : Migrated p₀) : NeverTwoProposals hashToken NoneSince p₀ := by
  intro p hreach
  have hone : OneProposal p₀.store := by
    intro venueId r hr r' hr' hopen
    have hstatus := (h.rules r hr).2.2
    rw [hopen.2.1] at hstatus
    split at hstatus <;> cases hstatus
  exact (steady_reach (fun op s _ => call_keeps op s)
    (P := fun p => Promises (lifecycle hashToken) LookedIf p ∧ OneProposal p.store) h.steady
    ⟨promises_start h.idle, hone⟩ hreach fun _ _ _ hsteady hp hok hs hturns =>
      ⟨promises_step (fun op s _ => call_looks op s) hsteady hturns hs hp.1,
        oneProposal_turn hturns hp.1 hp.2 hok⟩).2.2

theorem never_two_proposals_sample : NeverTwoProposals id NoneSince performing :=
  never_two_proposals performing_migrated

/-! ### Two proposals at once -/

/-- Both look for open proposals before either is there. -/
def proposedTogether : List (Event Rules Operation) :=
  [.start (.propose ⟨Money.uid 2, Money.uid 3, 7000, 2500⟩ (Money.uid 9)),
    .start (.propose ⟨Money.uid 2, Money.uid 3, 6000, 3500⟩ (Money.uid 9))] ++
    execs 0 [1, 2, 3, 4, 5] ++ execs 1 [6, 7, 8, 9, 10] ++ execs 0 [11, 12, 13] ++ execs 1 [14, 15, 16]

def twoProposals (venueId : Uuid) (s : Store Rules) : Bool :=
  s.table.rows.any fun r => s.table.rows.any fun r' =>
    decide (Answerable venueId r) && decide (Answerable venueId r') && r != r'

/-- Two proposals made at once can both be answered. -/
theorem overlapping_proposals : ¬ NeverTwoProposals id anyEvent performing := by
  intro hnever
  have hrun : ((run (Operation.call id) performing proposedTogether).any fun p =>
      twoProposals (Money.uid 2) p.store) = true := by
    decide +kernel
  obtain ⟨p, hp, htwo⟩ := (Option.any_eq_true _ _).mp hrun
  simp only [twoProposals, List.any_eq_true, Bool.and_eq_true, decide_eq_true_eq, bne_iff_ne] at htwo
  obtain ⟨r, hr, r', hr', ⟨hopen, hopen'⟩, hne⟩ := htwo
  exact hne (hnever p (reach_of_run hp) _ r hr r' hr' hopen hopen')

end Splitcore.SplitRules
