import Splitcore.Money.Checkout
import Splitcore.Money.Services
import Splitcore.SplitRules.Calls

/-!
The rules in force at a venue: never none again once there was one, and never two as long as no
other came into force behind a call's back.
-/

namespace Splitcore.SplitRules

open Relational Isolation Interleaving

variable {hashToken : String → String} {p p' p₀ : Pool Rules Operation} {venueId : Uuid}

/-- As the governance migration leaves the rules, with no call under way. -/
structure Migrated (p : Pool Rules Operation) : Prop where
  idle : p.sessions = []
  rules : ∀ r ∈ p.store.table.rows, r.origin = .ADMIN_OVERRIDE ∧ r.effectiveFrom ≠ none ∧
    r.status = if r.effectiveTo = none then .ACTIVE else .SUPERSEDED

lemma Migrated.inv (h : Migrated p) : Inv p.store := by
  intro r hr
  obtain ⟨-, hfrom, hstatus⟩ := h.rules r hr
  split at hstatus
  · rename_i hto
    exact ⟨by simp [HasBeenActive, hfrom, hstatus], fun hne => absurd hto hne⟩
  · exact ⟨by simp [HasBeenActive, hfrom, hstatus], fun _ => hstatus⟩

lemma Migrated.steady (h : Migrated p) : Steady (lifecycle hashToken) p := steady_start h.inv h.idle

lemma mem_rows_of_row {s : Store Rules} {id : Uuid} {r : SplitRule} (h : s.row id = some r) :
    r ∈ s.table.rows :=
  (row_eq_some.mp h).1

/-! ### Always one -/

/-- The venue has a rule in force. -/
def HasRule (venueId : Uuid) (s : Store Rules) : Prop := ∃ r ∈ s.table.rows, InForce venueId r

/-- **A turn leaves a venue a rule**: the call that closes one puts one in force. -/
theorem hasRule_turn {ev : Event Rules Operation} (h : Turns (lifecycle hashToken) p ev p') (hin : HasRule venueId p.store) :
    HasRule venueId p'.store := by
  cases h with
  | same hstore hold => rw [hstore]; exact hin
  | others r hstore hsessions => rw [hstore]; exact hin
  | commits i w c c' hev hc hret hsees hdoes hsessions hlabel hwork hphase =>
    have hdoes : Does hashToken c.label c.work := hdoes
    obtain ⟨r, hr, hforce⟩ := hin
    obtain ⟨r', hr', rfl | hchanged⟩ := hdoes.row hsees (row_of_mem hr)
    · exact ⟨r', mem_rows_of_row hr', hforce⟩
    -- the call wrote it, so it superseded it, and put another in force
    have hrow := hsees.row (Rules.id r)
    rw [hr'] at hrow
    rcases hwrote : c.work.wrote (Rules.id r) with _ | w <;> rw [hwrote] at hrow
    · rw [row_of_mem hr] at hrow
      cases hrow
      exact ⟨r, mem_rows_of_row hr', hforce⟩
    · cases hrow
      have hmem : w ∈ c.work.writes := List.mem_of_find?_eq_some hwrote
      have hsuperseded : w.after.status = .SUPERSEDED := hchanged.supersedes hforce.2.1
      obtain ⟨w', hw', hnew⟩ := hdoes.replaces w hmem hsuperseded
      have hvenue : w.after.venueId = venueId :=
        (congrArg Prod.fst hchanged.evolves.terms).trans hforce.1
      rw [hvenue] at hnew
      exact ⟨w'.after, mem_rows_of_row (hsees.row_of_mem hw'), hnew⟩

/-- What a call of one statement answers. -/
def answered {α : Type} (c : Prog App α) (w : Input) (db : Db) : Option α :=
  match c with
  | .stmt _ _ k => match k (.ok (w, db)) with
    | .ret a => some a
    | _ => none
  | _ => none

lemma newest_ne_none {rules : List SplitRule} (h : rules ≠ []) : Money.newest rules ≠ none := by
  obtain ⟨rule, rules, rfl⟩ := List.exists_cons_of_ne_nil h
  -- once there is a newest, there stays one
  rw [Money.newest, List.foldl_cons]
  refine List.foldlRecOn (motive := (· ≠ none)) rules _ (by simp) fun best hbest rule' _ => ?_
  obtain ⟨b, rfl⟩ := Option.ne_none_iff_exists'.mp hbest
  dsimp only
  split <;> simp

/-- What `findActiveByVenue` selects from. -/
def candidates (venueId : Uuid) (rank : Uuid → ℕ) (rules : Table SplitRule) : List SplitRule :=
  (rules.rows.insertionSort fun a b => rank a.id ≤ rank b.id).filter fun r =>
    r.venueId == venueId && r.status == .ACTIVE && r.effectiveTo.isNone

/-- With a rule in force, `findActiveByVenue` does not throw. -/
lemma findActiveByVenue_answers {s : Store Rules} (h : HasRule venueId s) (w : Input) {db : Db}
    (hdb : db.splitRules = s.table) : (answered (Money.findActiveByVenue venueId) w db).isSome := by
  obtain ⟨r, hr, hvenue, hactive, hto⟩ := h
  have hmem : r ∈ candidates venueId w.rank db.splitRules := by
    refine List.mem_filter.mpr ⟨(List.mem_insertionSort _).mpr (hdb ▸ hr), ?_⟩
    simp [hvenue, hactive, hto]
  obtain ⟨rule, hrule⟩ := Option.ne_none_iff_exists'.mp (newest_ne_none (List.ne_nil_of_mem hmem))
  have hrun : (do
      let rank ← Tx.rank
      Tx.read fun db => Money.newest ((db.splitRules.rows.insertionSort fun a b =>
        rank a.id ≤ rank b.id).filter fun r =>
          r.venueId == venueId && r.status == .ACTIVE && r.effectiveTo.isNone) : Tx _).run w db =
      .ok (some rule, db) := by
    rw [← hrule]
    rfl
  simp only [answered, Money.findActiveByVenue, statement, Prog.command, Prog.bind_eq, Prog.bind, hrun,
    Except.map]
  rfl

/-- **Once a venue has a rule in force it always has one**, and payments find it. -/
theorem always_one_in_force (hashToken : String → String) (h : Migrated p₀)
    (hreach : Reach (Operation.call hashToken) anyEvent p₀ p)
    (hlater : Reach (Operation.call hashToken) anyEvent p p') (hin : HasRule venueId p.store) :
    HasRule venueId p'.store ∧ ∀ w db, db.splitRules = p'.store.table →
      (answered (Money.findActiveByVenue venueId) w db).isSome := by
  have hentry : ∀ op s, (lifecycle hashToken).Inv s → Keeps hashToken
      (fun _ k _ => Does hashToken op k) (op.call hashToken) s {} := fun op s _ => call_keeps op s
  have hsteady : Steady (lifecycle hashToken) p :=
    (steady_reach hentry (P := fun _ => True) h.steady trivial hreach fun _ _ _ _ _ _ _ _ => trivial).1
  have hhas : HasRule venueId p'.store :=
    (steady_reach hentry (P := fun p => HasRule venueId p.store) hsteady hin hlater
      fun _ _ _ _ hin _ _ hturns => hasRule_turn hturns hin).2
  exact ⟨hhas, fun w db hdb => findActiveByVenue_answers hhas w hdb⟩

/-! ### Never two -/

/-- No venue has two rules in force. -/
def OneInForce (s : Store Rules) : Prop :=
  ∀ venueId, ∀ r ∈ s.table.rows, ∀ r' ∈ s.table.rows, InForce venueId r → InForce venueId r' → r = r'

/-- When a call commits, the rules of its venue that are in force were so when it read the outgoing
ones. -/
def NothingNew (p : Pool Rules Operation) (ev : Event Rules Operation) : Prop :=
  ∀ i w c, ev = .exec i w → p.running i = some c → c.call = .ret () →
    ∀ venueId view, (Site.outgoing venueId, view) ∈ c.work.reads →
      ∀ r ∈ p.store.table.rows, InForce venueId r →
        ∃ r₀ ∈ view.table.rows, r₀.id = r.id ∧ InForce venueId r₀

/-- No run gets a venue two rules in force. -/
def NeverTwo (hashToken : String → String) (ok : Pool Rules Operation → Event Rules Operation → Prop)
    (p₀ : Pool Rules Operation) : Prop :=
  ∀ p, Reach (Operation.call hashToken) ok p₀ p → OneInForce p.store

/-- **A turn keeps to one rule**, if nothing came into force behind the call's back. -/
theorem oneInForce_turn {ev : Event Rules Operation} (h : Turns (lifecycle hashToken) p ev p')
    (hone : OneInForce p.store) (hok : NothingNew p ev) : OneInForce p'.store := by
  cases h with
  | same hstore hold => rw [hstore]; exact hone
  | others r hstore hsessions => rw [hstore]; exact hone
  | commits i w c c' hev hc hret hsees hdoes hsessions hlabel hwork hphase =>
    have hdoes : Does hashToken c.label c.work := hdoes
    intro venueId r hr r' hr' hforce hforce'
    -- a rule the call did not write, beside one that it put in force, would have been closed
    have hclosed : ∀ w ∈ c.work.writes, InForce venueId w.after → ∀ r ∈ p.store.table.rows,
        InForce venueId r → c.work.wrote r.id ≠ none := by
      intro w hw hin r hr hforce hnone
      obtain ⟨view, hview, hfound⟩ := hdoes.closes venueId w hw hin
      obtain ⟨r₀, hr₀, hid, hforce₀⟩ := hok i _ c hev hc hret venueId view hview r hr hforce
      obtain ⟨w', hw', hid'⟩ := hfound r₀ hr₀ hforce₀
      exact wrote_eq_none.mp hnone w' hw' (hid'.trans hid)
    rcases hdoes.source hsees hr with ⟨hold, hnone⟩ | ⟨w, hw, rfl, -⟩ <;>
      rcases hdoes.source hsees hr' with ⟨hold', hnone'⟩ | ⟨w', hw', rfl, -⟩
    · exact hone venueId r hold r' hold' hforce hforce'
    · exact absurd hnone (hclosed w' hw' hforce' r hold hforce)
    · exact absurd hnone' (hclosed w hw hforce r' hold' hforce')
    · rw [hdoes.single venueId w hw w' hw' hforce hforce']

/-- **A venue never has two rules in force**, as long as no rule of it comes into force between a
call's read of the outgoing ones and its commit. -/
theorem never_two_in_force (h : Migrated p₀) (hone : OneInForce p₀.store) :
    NeverTwo hashToken NothingNew p₀ := by
  intro p hreach
  exact (steady_reach (fun op s _ => call_keeps op s) h.steady hone hreach
    fun _ _ _ _ hone hok _ hturns => oneInForce_turn hturns hone hok).2

/-! ### Two overrides at once -/

/-- One venue, with one rule in force since the migration. -/
def migrated : Pool Rules Operation :=
  ⟨⟨⟨[Money.sampleRule], Money.sampleRule_keys⟩, [], ⟨none, .empty, .empty⟩⟩, []⟩

lemma migrated_migrated : Migrated migrated :=
  ⟨rfl, fun r hr => by rw [List.mem_singleton.mp hr]; decide⟩

theorem never_two_in_force_sample : NeverTwo id NothingNew migrated :=
  never_two_in_force migrated_migrated fun _ _ hr _ hr' _ _ =>
    (List.mem_singleton.mp hr).trans (List.mem_singleton.mp hr').symm

def drawAt (k : ℕ) : Draw := ⟨k, Money.uid (1000 * k), "token" ++ toString k⟩

/-- Session `i` executes its next statements, at the times given. -/
def execs (i : ℕ) (times : List ℕ) : List (Event Rules Operation) :=
  times.map fun k => .exec i (drawAt k)

def overrideTo (entertainerBps venueBps : ℤ) : Operation :=
  .override ⟨Money.uid 2, entertainerBps, venueBps, 500, "agreed by phone"⟩ (Money.uid 9)

/-- Both read the rule in force before either commits. -/
def overlapping : List (Event Rules Operation) :=
  [.start (overrideTo 7000 2500), .start (overrideTo 6000 3500)] ++ execs 0 [1, 2] ++ execs 1 [3, 4] ++
    execs 0 [5, 6, 7, 8, 9] ++ execs 1 [10, 11, 12, 13, 14]

theorem always_one_in_force_sample : ∃ p, run (Operation.call id) migrated overlapping = some p ∧
    HasRule (Money.uid 2) p.store ∧ ∀ w db, db.splitRules = p.store.table →
      (answered (Money.findActiveByVenue (Money.uid 2)) w db).isSome := by
  obtain ⟨p, hp⟩ := Option.isSome_iff_exists.mp
    (by decide +kernel : (run (Operation.call id) migrated overlapping).isSome = true)
  exact ⟨p, hp, always_one_in_force id migrated_migrated .refl (reach_of_run hp)
    ⟨Money.sampleRule, List.mem_singleton_self _, by decide⟩⟩

def twoInForce (venueId : Uuid) (s : Store Rules) : Bool :=
  s.table.rows.any fun r => s.table.rows.any fun r' =>
    decide (InForce venueId r) && decide (InForce venueId r') && r != r'

/-- Two overrides leave the venue two rules in force. -/
theorem overlapping_overrides : ¬ NeverTwo id anyEvent migrated := by
  intro hnever
  have hrun : ((run (Operation.call id) migrated overlapping).any fun p =>
      twoInForce (Money.uid 2) p.store) = true := by
    decide +kernel
  obtain ⟨p, hp, htwo⟩ := (Option.any_eq_true _ _).mp hrun
  simp only [twoInForce, List.any_eq_true, Bool.and_eq_true, decide_eq_true_eq, bne_iff_ne] at htwo
  obtain ⟨r, hr, r', hr', ⟨hforce, hforce'⟩, hne⟩ := htwo
  exact hne (hnever p (reach_of_run hp) _ r hr r' hr' hforce hforce')

end Splitcore.SplitRules
