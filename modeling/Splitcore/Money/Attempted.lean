import Splitcore.Money.Tracking

/-!
What the statements keep of payouts and their attempts, and what they teach a run.
-/

namespace Splitcore.Money

open Relational Interleaving Ledger

/-! ### What the statements keep -/

section Kept

variable {g : Knows} {site : Site} {db db' : Db} {id : Uuid}

/-- A row of this payout and amount, with at least `n` attempts. -/
def HasRow (db : Db) (id : Uuid) (amountKobo : ℤ) (n : ℕ) : Prop :=
  ∃ p ∈ db.payouts.rows, p.id = id ∧ p.amountKobo = amountKobo ∧ n ≤ p.attempts

/-- Payouts stay, with their amounts, and attempts are only added. -/
def Grows (db db' : Db) : Prop := ∀ p ∈ db.payouts.rows, HasRow db' p.id p.amountKobo p.attempts

lemma HasRow.grows {amountKobo : ℤ} {n : ℕ} (h : HasRow db id amountKobo n) (hg : Grows db db') :
    HasRow db' id amountKobo n := by
  obtain ⟨p, hp, rfl, rfl, hn⟩ := h
  obtain ⟨q, hq, hid, hamount, hle⟩ := hg p hp
  exact ⟨q, hq, hid, hamount, hn.trans hle⟩

lemma grows_of_eq (h : db'.payouts = db.payouts) : Grows db db' :=
  fun p hp => ⟨p, by rw [h]; exact hp, rfl, rfl, le_rfl⟩

lemma refsAgree_of_eq (h : db'.payouts = db.payouts) (ha : RefsAgree db) : RefsAgree db' := by
  unfold RefsAgree; rw [h]; exact ha

/-- What a run knows of a payout is still so. -/
def Knows.Fits (db : Db) : Knows → Prop
  | nothing => True
  | read p | cleared p => p.transferReference = referenceAt p.id p.attempts ∧
      HasRow db p.id p.amountKobo p.attempts
  | holding p | sent p => HasRow db p.id p.amountKobo (p.attempts + 1)

lemma Knows.Fits.grows {st : Knows} (h : st.Fits db) (hg : Grows db db') : st.Fits db' := by
  cases st with
  | nothing => trivial
  | read p | cleared p => exact ⟨h.1, h.2.grows hg⟩
  | holding p | sent p => exact HasRow.grows h hg

/-- The rows after an update, each from one before. -/
lemma mem_update {guard : Payout → Bool} {update : Payout → Payout}
    (ht : db.payouts.update guard update = some db'.payouts) {p : Payout} :
    p ∈ db'.payouts.rows ↔ ∃ q ∈ db.payouts.rows, (if guard q then update q else q) = p := by
  rw [Table.rows_update ht, List.mem_map]

lemma Acts.grows (h : Acts g site db db') : Grows db db' := by
  cases h with
  | same hpayouts => exact grows_of_eq hpayouts
  | added hg rows hrows =>
    exact fun p hp => ⟨p, by rw [hrows]; exact List.mem_append_left _ hp, rfl, rfl, le_rfl⟩
  | claimed payout hg hsite guard update ht hguard hfound hupdate =>
    intro p hp
    refine ⟨_, (mem_update ht).mpr ⟨p, hp, rfl⟩, ?_⟩
    split
    · rename_i hgp
      have hattempt := hupdate p hgp
      simp only [attemptOf, Prod.mk.injEq] at hattempt
      obtain ⟨hid, hamount, ha, -⟩ := hattempt
      exact ⟨hid, hamount, by omega⟩
    · exact ⟨rfl, rfl, le_rfl⟩
  | changed i guard update ht hguard hfound hkeeps =>
    intro p hp
    refine ⟨_, (mem_update ht).mpr ⟨p, hp, rfl⟩, ?_⟩
    split
    · have hattempt := hkeeps p
      simp only [attemptOf, Prod.mk.injEq] at hattempt
      obtain ⟨hid, hamount, ha, -⟩ := hattempt
      exact ⟨hid, hamount, by omega⟩
    · exact ⟨rfl, rfl, le_rfl⟩

lemma Acts.refsAgree (h : Acts g site db db') (ha : RefsAgree db) : RefsAgree db' := by
  cases h with
  | same hpayouts => exact refsAgree_of_eq hpayouts ha
  | added hg rows hrows huntried =>
    intro p hp
    rw [hrows, List.mem_append] at hp
    rcases hp with hp | hp
    · exact ha p hp
    · rw [(huntried p hp).transferReference, (huntried p hp).attempts]; rfl
  | claimed payout hg hsite guard update ht hguard hfound hupdate =>
    intro p hp
    obtain ⟨q, hq, rfl⟩ := (mem_update ht).mp hp
    split
    · rename_i hgq
      have hattempt := hupdate q hgq
      simp only [attemptOf, Prod.mk.injEq] at hattempt
      obtain ⟨hid, -, hattempts, href⟩ := hattempt
      rw [href, hid, hattempts]
    · exact ha q hq
  | changed i guard update ht hguard hfound hkeeps =>
    intro p hp
    obtain ⟨q, hq, rfl⟩ := (mem_update ht).mp hp
    split
    · have hattempt := hkeeps q
      simp only [attemptOf, Prod.mk.injEq] at hattempt
      obtain ⟨hid, -, hattempts, href⟩ := hattempt
      rw [href, hid, hattempts]
      exact ha q hq
    · exact ha q hq

/-- Amounts are positive. -/
def Positive (db : Db) : Prop := ∀ p ∈ db.payouts.rows, 0 < p.amountKobo

lemma positive_of_eq (h : db'.payouts = db.payouts) (hpos : Positive db) : Positive db' := by
  unfold Positive; rw [h]; exact hpos

lemma Acts.positive (h : Acts g site db db') (hpos : Positive db) : Positive db' := by
  cases h with
  | same hpayouts => exact positive_of_eq hpayouts hpos
  | added hg rows hrows huntried =>
    intro p hp
    rw [hrows, List.mem_append] at hp
    exact hp.elim (hpos p) fun hp => (huntried p hp).positive
  | claimed payout hg hsite guard update ht hguard hfound hupdate =>
    intro p hp
    obtain ⟨q, hq, rfl⟩ := (mem_update ht).mp hp
    split
    · rename_i hgq
      have hattempt := hupdate q hgq
      simp only [attemptOf, Prod.mk.injEq] at hattempt
      rw [hattempt.2.1]; exact hpos q hq
    · exact hpos q hq
  | changed i guard update ht hguard hfound hkeeps =>
    intro p hp
    obtain ⟨q, hq, rfl⟩ := (mem_update ht).mp hp
    split
    · have hattempt := hkeeps q
      simp only [attemptOf, Prod.mk.injEq] at hattempt
      rw [hattempt.2.1]; exact hpos q hq
    · exact hpos q hq

/-! The last attempt claimed. -/

def currentOf (db : Db) (id : Uuid) : ℕ := ((db.payouts.find (·.id == id)).map (·.attempts)).getD 0

lemma payout_eq {p q : Payout} (hp : p ∈ db.payouts.rows) (hq : q ∈ db.payouts.rows)
    (h : p.id = q.id) : p = q :=
  Table.eq_of_key (k := .id q.id) hp hq (by simp [Indexed.keys, h]) (by simp [Indexed.keys])

lemma currentOf_mem {p : Payout} (hp : p ∈ db.payouts.rows) : currentOf db p.id = p.attempts := by
  rw [currentOf, (Table.find_eq_some names_payout).mpr ⟨hp, by simp⟩]; rfl

lemma currentOf_none (h : ∀ p ∈ db.payouts.rows, p.id ≠ id) : currentOf db id = 0 := by
  rw [currentOf, Table.find_eq_none.mpr fun p hp => by simpa using h p hp]; rfl

/-- Attempts compared row by row. -/
lemma currentOf_eq (hnone : (∀ p ∈ db.payouts.rows, p.id ≠ id) →
      ∀ p ∈ db'.payouts.rows, p.id = id → p.attempts = 0)
    (hmem : ∀ p ∈ db.payouts.rows, p.id = id →
      ∃ q ∈ db'.payouts.rows, q.id = id ∧ q.attempts = p.attempts) :
    currentOf db' id = currentOf db id := by
  by_cases h : ∃ p ∈ db.payouts.rows, p.id = id
  · obtain ⟨p, hp, rfl⟩ := h
    obtain ⟨q, hq, hid, ha⟩ := hmem p hp rfl
    rw [currentOf_mem hp, ← hid, currentOf_mem hq, ha]
  · push Not at h
    rw [currentOf_none h]
    by_cases h' : ∃ q ∈ db'.payouts.rows, q.id = id
    · obtain ⟨q, hq, rfl⟩ := h'
      rw [currentOf_mem hq, hnone h q hq rfl]
    · push Not at h'
      exact currentOf_none h'

/-- **Attempts are added by claims only, one at a time, on the row as the run read it.** -/
theorem Acts.current (h : Acts g site db db') :
    (∀ id, currentOf db' id = currentOf db id) ∨ ∃ payout, g = .cleared payout ∧
      site = .processPayoutClaim payout.id ∧ currentOf db payout.id = payout.attempts ∧
      currentOf db' payout.id = payout.attempts + 1 ∧
      ∀ id, id ≠ payout.id → currentOf db' id = currentOf db id := by
  cases h with
  | same hpayouts => exact .inl fun id => by rw [currentOf, hpayouts]; rfl
  | added hg rows hrows huntried =>
    refine .inl fun id => currentOf_eq (fun hnone p hp hid => ?_) fun p hp hid => ?_
    · rw [hrows, List.mem_append] at hp
      rcases hp with hp | hp
      · exact absurd hid (hnone p hp)
      · exact (huntried p hp).attempts
    · exact ⟨p, by rw [hrows]; exact List.mem_append_left _ hp, hid, rfl⟩
  | claimed payout hg hsite guard update ht hguard hfound hupdate =>
    obtain ⟨row, hrow, hgrow⟩ := hfound
    obtain ⟨hid, ha⟩ := hguard row hgrow
    have hattempt := hupdate row hgrow
    simp only [attemptOf, Prod.mk.injEq] at hattempt
    have hrow' : update row ∈ db'.payouts.rows := (mem_update ht).mpr ⟨row, hrow, if_pos hgrow⟩
    refine .inr ⟨payout, hg, hsite, ?_, ?_, fun i hne => ?_⟩
    · rw [← hid, currentOf_mem hrow, ha]
    · have := currentOf_mem hrow'
      rwa [hattempt.1, hid, hattempt.2.2.1, ha] at this
    · have hother : ∀ p ∈ db.payouts.rows, p.id = i → (if guard p then update p else p) = p :=
        fun p _ hp => if_neg fun hgp => hne (hp.symm.trans (hguard p hgp).1)
      refine currentOf_eq (fun hnone p hp hpi => ?_) fun p hp hpi => ?_
      · obtain ⟨q, hq, rfl⟩ := (mem_update ht).mp hp
        split at hpi
        · rename_i hgq
          have hq' := hupdate q hgq
          simp only [attemptOf, Prod.mk.injEq] at hq'
          exact absurd (hpi.symm.trans (hq'.1.trans (hguard q hgq).1)) hne
        · exact absurd hpi (hnone q hq)
      · exact ⟨p, (mem_update ht).mpr ⟨p, hp, hother p hp hpi⟩, hpi, rfl⟩
  | changed i guard update ht hguard hfound hkeeps =>
    have hsame : ∀ p : Payout, (if guard p then update p else p).id = p.id ∧
        (if guard p then update p else p).attempts = p.attempts := fun p => by
      split
      · have hattempt := hkeeps p
        simp only [attemptOf, Prod.mk.injEq] at hattempt
        exact ⟨hattempt.1, hattempt.2.2.1⟩
      · exact ⟨rfl, rfl⟩
    refine .inl fun id => currentOf_eq (fun hnone p hp hpi => ?_) fun p hp hpi => ?_
    · obtain ⟨q, hq, rfl⟩ := (mem_update ht).mp hp
      exact absurd ((hsame q).1.symm.trans hpi) (hnone q hq)
    · exact ⟨_, (mem_update ht).mpr ⟨p, hp, rfl⟩, (hsame p).1.trans hpi, (hsame p).2⟩

lemma current_of_raises {p : Payout} (h : Knows.raises p db db' = true) :
    currentOf db p.id = p.attempts ∧ currentOf db' p.id = p.attempts + 1 := by
  simp only [Knows.raises, Bool.and_eq_true, List.any_eq_true, beq_iff_eq] at h
  obtain ⟨⟨q, hq, hid, ha⟩, q', hq', hid', ha'⟩ := h
  exact ⟨by rw [← hid, currentOf_mem hq, ha], by rw [← hid', currentOf_mem hq', ha']⟩

/-! What a statement teaches the run that executes it. -/

variable {w : Input} {p : Payout}

lemma next_holding (h : g.next (.stmt site w db db') = .holding p) :
    g = .holding p ∨ g = .cleared p ∧ Knows.raises p db db' = true := by
  cases site <;> simp only [Knows.next] at h <;> try exact .inl h
  · rcases hfind : db.payouts.find (·.id == _) with _ | q <;> rw [hfind] at h
    · cases h
    · simp only [Knows.ofFound, Knows.verifiedIfNew] at h
      split at h <;> cases h
  · cases g with
    | cleared q =>
      simp only [Knows.claims] at h
      split at h
      · cases h; exact .inr ⟨rfl, ‹_›⟩
      · cases h
    | _ => exact .inl h
  · rcases hfind : db.payouts.find (·.transferReference == _) with _ | q <;> rw [hfind] at h <;>
      cases h

lemma next_cleared (h : g.next (.stmt site w db db') = .cleared p) :
    g = .cleared p ∨ (∃ id, site = .processPayoutFind id) ∧ p ∈ db.payouts.rows ∧
      p.transferReference = none := by
  cases site <;> simp only [Knows.next] at h <;> try exact .inl h
  · rcases hfind : db.payouts.find (·.id == _) with _ | q <;> rw [hfind] at h
    · cases h
    · simp only [Knows.ofFound, Knows.verifiedIfNew] at h
      split at h <;> cases h
      exact .inr ⟨⟨_, rfl⟩, Table.mem_of_find hfind, ‹_›⟩
  · cases g with
    | cleared q =>
      simp only [Knows.claims] at h
      split at h
      · cases h
      · exact .inl h
    | _ => exact .inl h
  · rcases hfind : db.payouts.find (·.transferReference == _) with _ | q <;> rw [hfind] at h <;>
      cases h

lemma next_fits (hacts : Acts g site db db') (hagree : RefsAgree db) (h : g.Fits db) :
    (g.next (.stmt site w db db')).Fits db' := by
  have hgrows := hacts.grows
  have hread : ∀ o, (∀ q, o = some q → q ∈ db.payouts.rows) → (Knows.ofFound o).Fits db' := by
    rintro (_ | q) hq
    · trivial
    · exact ⟨hagree q (hq q rfl), hgrows q (hq q rfl)⟩
  cases site <;> simp only [Knows.next] <;> try exact h.grows hgrows
  · rename_i payoutId
    have hfound := hread (db.payouts.find (·.id == payoutId)) fun q => Table.mem_of_find
    rcases hfind : db.payouts.find (·.id == payoutId) with _ | q <;> rw [hfind] at hfound
    · exact hfound
    · simp only [Knows.ofFound, Knows.verifiedIfNew]
      split <;> exact hfound
  · cases g with
    | cleared q =>
      simp only [Knows.claims]
      split
      · rename_i hr
        -- the row the run read now has one attempt more
        obtain ⟨hbefore, hafter⟩ := current_of_raises hr
        obtain ⟨-, r, hr', hid, hamount, -⟩ := h.grows hgrows
        refine ⟨r, hr', hid, hamount, ?_⟩
        rw [← currentOf_mem hr', hid, hafter]
      · exact h.grows hgrows
    | _ => exact h.grows hgrows
  · exact hread _ fun q => Table.mem_of_find

lemma throws_holding : g.throws ≠ .holding p := by
  cases g <;> simp [Knows.throws]

lemma throws_cleared (h : g.throws = .cleared p) : g = .cleared p := by
  cases g <;> simp_all [Knows.throws]

lemma throws_fits (h : g.Fits db) : g.throws.Fits db := by
  cases g with
  | holding q => trivial
  | _ => exact h

lemma attempts_eq_zero (ha : RefsAgree db) (hp : p ∈ db.payouts.rows)
    (href : p.transferReference = none) : p.attempts = 0 := by
  have h := ha p hp
  rw [href] at h
  unfold referenceAt at h
  split at h
  · assumption
  · cases h

end Kept

/-! ### Runs that keep to what they know -/

section Tracked

variable {L X V : Type} {env : Outside App L X V} {p p' : Pool App L X} {ev : Event App L V}

structure Tracked (p : Pool App L X) : Prop where
  watched : (tracking L).WatchesAll p
  refs : RefsAgree p.store

lemma tracked_start (hruns : p.runs = []) (hrefs : RefsAgree p.store) : Tracked p :=
  ⟨fun r hr => by simp [hruns] at hr, hrefs⟩

/-- The statement an event executes acts as its run may; every other event leaves payouts and
the ledger alone. -/
def ActsAsKnown (p p' : Pool App L X) (ev : Event App L V) : Prop :=
  (∀ i, executes ev = some i → ∃ r site eff k, p.live i = some r ∧ r.prog = .stmt site eff k ∧
    Acts ((tracking L).at_ r) site p.store p'.store) ∧
  (executes ev = none → p'.store.payouts = p.store.payouts)

variable (hentry : ∀ l, Tracks L (env.entry l) .nothing)
  (hmove : ∀ v s x s' x', env.move v s x = some (s', x') → s'.payouts = s.payouts)
include hentry hmove

theorem tracked_step (h : Tracked p) (hs : step env p ev = some p') :
    Tracked p' ∧ ActsAsKnown p p' ev := by
  have hrely : (tracking L).Relies p ev := by
    cases ev <;> first
      | trivial
      | exact fun _ _ _ _ _ _ => h.refs
  have hwatched : (tracking L).WatchesAll p' :=
    Monitor.watchesAll_step h.watched (fun l _ _ => hentry l) hrely hs
  suffices hacts : ActsAsKnown p p' ev by
    refine ⟨⟨hwatched, ?_⟩, hacts⟩
    rcases hev : executes ev with _ | i
    · exact refsAgree_of_eq (hacts.2 hev) h.refs
    · obtain ⟨r, site, eff, k, -, -, hacts⟩ := hacts.1 i hev
      exact hacts.refsAgree h.refs
  rcases h.watched.step_store hrely hs with ⟨i, r, nm, w, hev, hdone⟩ | ⟨hev, hstore⟩ | ⟨v, rfl, hm⟩
  · obtain ⟨eff, k, hp⟩ := hdone.prog
    refine ⟨fun j hj => ?_, fun hnone => by simp [hev] at hnone⟩
    obtain rfl : i = j := Option.some.inj (hev.symm.trans hj)
    exact ⟨r, nm, eff, k, hdone.live, hp, hdone.guar⟩
  · exact ⟨fun j hj => by simp [hev] at hj, fun _ => by rw [hstore]⟩
  · exact ⟨fun j hj => by simp [executes] at hj, fun _ => hmove v _ _ _ _ hm⟩

end Tracked

/-- The services keep to what they know. -/
lemma services_tracked {p p' : Pool App Operation Unit} {ev : Event App Operation Db} (h : Tracked p)
    (hs : step services p ev = some p') : Tracked p' ∧ ActsAsKnown p p' ev :=
  tracked_step (fun o => program_tracks o)
    (fun _ _ _ _ _ hm => (elsewhere_keeps (services_move hm)).2.2.2) h hs

end Splitcore.Money
