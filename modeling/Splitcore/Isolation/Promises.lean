import Splitcore.Isolation.Guarantees

/-!
What a call has done by its end, seen from the state it commits on.

A discipline says what a commit did to the rows. What a call found on the way, and what the others
may have made of it since, is said about the last state the call saw, which the committed one is
later than.
-/

namespace Splitcore.Isolation

open Relational

variable {σ : Schema} {L : Type} {D : Discipline σ L} {p p' : Pool σ L} {c : Session σ L} {s v : Store σ}
  {i : ℕ} {w : σ.Input} {ev : Event σ L} {entry : L → Call σ Unit}

/-- Every open session goes on so that `Q` holds at its end, of the last state it saw and of what it
did. -/
def Promises (D : Discipline σ L) (Q : L → Store σ → Work σ → Prop) (p : Pool σ L) : Prop :=
  ∀ i c, p.running i = some c → ∃ s, D.Later s p.store ∧
    Obeys D (fun s k _ => Q c.label s k) c.call s c.work

/-- A session's next statement. -/
lemma obeys_next {Q : Store σ → Work σ → Unit → Prop} (hobeys : Obeys D Q c.call s c.work)
    (hlater : D.Later s p.store) (hinv : D.Inv p.store)
    (hsees : Sees c.work p.store v) (hnext : (c.next w v).phase = .running) :
    ∃ s', D.Later s' p.store ∧ Obeys D Q (c.next w v).call s' (c.next w v).work := by
  -- a row written, if it could be
  have hwrote : ∀ (w : Write σ) (f : Call σ Unit), (c.wrote v w f).phase = .running →
      ((w.apply v.table).isSome = true →
        Obeys D Q f p.store { c.work with writes := record c.work.writes w }) →
      ∃ s', D.Later s' p.store ∧ Obeys D Q (c.wrote v w f).call s' (c.wrote v w f).work := by
    intro w f hphase hf
    unfold Session.wrote at hphase ⊢
    split
    · rename_i happly
      exact ⟨p.store, D.refl _, hf happly⟩
    · rename_i happly
      rw [if_neg happly] at hphase
      cases hphase
  unfold Session.next at hnext ⊢
  cases hcall : c.call with
  | ret a => rw [hcall] at hnext; cases hnext
  | raise e => rw [hcall] at hnext; cases hnext
  | read nm f =>
    rw [hcall] at hobeys
    exact ⟨p.store, D.refl _, hobeys w p.store v hlater hinv hsees⟩
  | create row f =>
    rw [hcall] at hobeys hnext
    refine hwrote ⟨none, row w⟩ (f (row w)) hnext fun happly => ?_
    obtain ⟨t, ht⟩ := Option.isSome_iff_exists.mp happly
    exact hobeys w p.store v hlater hinv hsees (find_apply_create ht rfl)
  | update id cond g f =>
    rw [hcall] at hobeys hnext
    obtain ⟨hsome, hnone⟩ := hobeys p.store v hlater hinv hsees
    simp only at hnext ⊢
    cases hrow : (v.row id).filter cond with
    | none =>
      refine ⟨p.store, D.refl _, hnone fun r hr => ?_⟩
      rw [hr, Option.filter_eq_none_iff] at hrow
      simpa using hrow r rfl
    | some r =>
      obtain ⟨hr, hcond⟩ := Option.filter_eq_some_iff.mp hrow
      rw [hrow] at hnext
      exact hwrote ⟨some r, g r⟩ _ hnext fun _ => (hsome r hr hcond).2
  | note n f =>
    rw [hcall] at hobeys
    exact ⟨s, hlater, hobeys w⟩

/-- **One event.** -/
theorem promises_step {Q : L → Store σ → Work σ → Prop}
    (hentry : ∀ l s, D.Inv s → Obeys D (fun s k _ => Q l s k) (entry l) s {}) (h : Steady D p)
    (hturns : Turns D p ev p') (hs : step entry p ev = some p') (hQ : Promises D Q p) :
    Promises D Q p' := by
  have hmove : D.Later p.store p'.store := hturns.later h.inv
  have hold : ∀ j d, p.running j = some d → ∃ s, D.Later s p'.store ∧
      Obeys D (fun s k _ => Q d.label s k) d.call s d.work := by
    intro j d hd
    obtain ⟨s, hlater, hobeys⟩ := hQ j d hd
    exact ⟨s, D.trans hlater hmove, hobeys⟩
  -- a session in another's place
  have hput : ∀ {i : ℕ} {c c' : Session σ L}, p.running i = some c →
      (c'.phase = .running → ∃ s, D.Later s p'.store ∧
        Obeys D (fun s k _ => Q c'.label s k) c'.call s c'.work) →
      p'.sessions = (p.put i c').sessions → Promises D Q p' := by
    intro i c c' hc hgoes hsessions j d hd
    have hd' : (p.put i c').running j = some d := by
      rw [← hd]
      simp only [Pool.running, hsessions]
    rw [running_put hc] at hd'
    split at hd'
    · obtain ⟨heq, hrun⟩ := Option.filter_eq_some_iff.mp hd'
      cases heq
      exact hgoes (by simpa using hrun)
    · exact hold j d hd'
  cases ev with
  | start l =>
    cases hs
    intro j d hd
    obtain ⟨hj, hrun⟩ := running_eq_some.mp hd
    rcases Nat.lt_or_ge j p.sessions.length with hlt | hge
    · rw [List.getElem?_append_left hlt] at hj
      exact hold j d (running_eq_some.mpr ⟨hj, hrun⟩)
    · rw [List.getElem?_append_right hge, List.getElem?_singleton] at hj
      split at hj
      · obtain rfl := Option.some.inj hj
        exact ⟨p.store, D.refl _, hentry l _ h.inv⟩
      · cases hj
  | exec i w =>
    obtain ⟨c, v, hc, hv, hwaits, rfl⟩ := step_exec hs
    have hlabel := (h.next (w := w) hc hv hwaits).1
    by_cases hcom : (c.next w v).phase = .committed
    · rw [if_pos hcom] at hput
      rw [if_pos hcom]
      exact hput hc (fun hrun => by rw [hcom] at hrun; cases hrun) rfl
    · rw [if_neg hcom] at hput
      rw [if_neg hcom]
      refine hput hc (fun hrun => ?_) rfl
      obtain ⟨s, hlater, hobeys⟩ := hQ i c hc
      rw [hlabel]
      exact obeys_next hobeys hlater h.inv ⟨h.held i c hc, hv⟩ hrun
  | rollback i =>
    obtain ⟨c, hc, rfl⟩ := step_rollback hs
    exact hput hc (fun hrun => by cases hrun) rfl
  | others r =>
    cases hs
    exact fun j d hd => hold j d hd

lemma promises_start {Q : L → Store σ → Work σ → Prop} (hnone : p.sessions = []) : Promises D Q p :=
  fun i c hc => by simp [Pool.running, hnone] at hc

/-- What a session that is at its end has done. -/
lemma Promises.ended {Q : L → Store σ → Work σ → Prop} (hQ : Promises D Q p)
    (hc : p.running i = some c) (hret : c.call = .ret ()) :
    ∃ s, D.Later s p.store ∧ Q c.label s c.work := by
  obtain ⟨s, hlater, hobeys⟩ := hQ i c hc
  rw [hret] at hobeys
  exact ⟨s, hlater, hobeys⟩

end Splitcore.Isolation
