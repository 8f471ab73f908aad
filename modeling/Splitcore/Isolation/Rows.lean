import Splitcore.Isolation.Guarantees

/-!
What holds of every row.

A property of single rows that no update breaks, and that every created row has, holds of every
committed row, whatever the interleaving. What is created may depend on what the call read of the rest
of the database.
-/

namespace Splitcore.Isolation

open Relational

variable {σ : Schema} {α β L : Type}

/-- With `R` of the rest of the database wherever the call reads it, the call creates rows in `P` and
leaves rows in `P`. -/
def Makes (R : σ.Rest → Prop) (P : σ.Row → Prop) : Call σ α → Prop
  | .ret _ => True
  | .raise _ => True
  | .read _ k => ∀ w s, R s.rest → Makes R P (k w s)
  | .create row k => ∀ w, P (row w) ∧ Makes R P (k (row w))
  | .update _ _ f k => (∀ r, P r → P (f r)) ∧ ∀ o, Makes R P (k o)
  | .note _ k => Makes R P k

variable {R : σ.Rest → Prop} {P : σ.Row → Prop} {c : Call σ α} {f : α → Call σ β}

lemma makes_bind (hc : Makes R P c) (hf : ∀ a, Makes R P (f a)) : Makes R P (c.bind f) := by
  induction c with
  | ret a => exact hf a
  | raise e => trivial
  | read nm k ih => exact fun w s hs => ih w s (hc w s hs)
  | create row k ih => exact fun w => ⟨(hc w).1, ih _ (hc w).2⟩
  | update id cond g k ih => exact ⟨hc.1, fun o => ih o (hc.2 o)⟩
  | note n k ih => exact ih hc

/-- A read, and what is made of it. -/
lemma makes_query {nm : σ.Name} {g : σ.Input → Store σ → α}
    (h : ∀ w s, R s.rest → Makes R P (f (g w s))) : Makes R P ((Call.query nm g).bind f) := h

lemma makes_insert {row : σ.Input → σ.Row} {f : σ.Row → Call σ β} (hrow : ∀ w, P (row w))
    (hf : ∀ r, Makes R P (f r)) : Makes R P ((Call.insert row).bind f) :=
  fun w => ⟨hrow w, hf _⟩

lemma makes_note {n : σ.Input → σ.Note} {f : Unit → Call σ β} (hf : Makes R P (f ())) :
    Makes R P ((Call.note n (.ret ())).bind f) := hf

lemma makes_update {id : σ.Id} {cond : σ.Row → Bool} {g : σ.Row → σ.Row} {f : Option σ.Row → Call σ β}
    (hg : ∀ r, P r → P (g r)) (hf : ∀ o, Makes R P (f o)) :
    Makes R P ((Call.update id cond g .ret).bind f) := ⟨hg, hf⟩

lemma makes_updateMany {nm : σ.Name} {cond : σ.Row → Bool} {g : σ.Row → σ.Row}
    (hg : ∀ r, P r → P (g r)) : Makes R P (Call.updateMany nm cond g) := by
  refine makes_query fun w s _ => ?_
  induction (s.table.rows.filter cond).map σ.id with
  | nil => trivial
  | cons id ids ih => exact ⟨hg, fun o => makes_bind ih fun _ => trivial⟩

/-! ### Pools -/

variable {s v : Store σ} {k : Work σ} {p p' : Pool σ L} {ev : Event σ L}

lemma rows_apply {t t' : Table σ.Row} {w : Write σ} (h : w.apply t = some t') {r : σ.Row}
    (hr : r ∈ t'.rows) : r ∈ t.rows ∨ r = w.after := by
  unfold Write.apply at h
  split at h
  · rw [Table.rows_insert h, List.mem_append, List.mem_singleton] at hr
    exact hr
  · rw [Table.rows_update h, List.mem_map] at hr
    obtain ⟨r₀, hr₀, rfl⟩ := hr
    split
    · exact .inr rfl
    · exact .inl hr₀

/-- A row that a transaction sees is committed, or its own. -/
lemma rows_view (h : k.view s = some v) {r : σ.Row} (hr : r ∈ v.table.rows) :
    r ∈ s.table.rows ∨ ∃ w ∈ k.writes, r = w.after := by
  obtain ⟨t, ht, rfl⟩ := Option.map_eq_some_iff.mp h
  have hfold : ∀ (ws : List (Write σ)) (t₀ : Table σ.Row), ws.foldlM Write.apply t₀ = some t →
      r ∈ t₀.rows ∨ ∃ w ∈ ws, r = w.after := by
    intro ws
    induction ws with
    | nil => intro t₀ ht₀; cases ht₀; exact .inl hr
    | cons w ws ih =>
      intro t₀ ht₀
      simp only [List.foldlM_cons, Option.bind_eq_bind, Option.bind_eq_some_iff] at ht₀
      obtain ⟨t₁, ht₁, hrest⟩ := ht₀
      rcases ih t₁ hrest with hold | ⟨w', hw', rfl⟩
      · exact (rows_apply ht₁ hold).imp_right fun heq => ⟨w, by simp, heq⟩
      · exact .inr ⟨w', List.mem_cons_of_mem _ hw', rfl⟩
  exact hfold k.writes s.table ht

/-- Every row is in `P`, also those that are not committed yet, and so will be those still to come. -/
structure Made (R : σ.Rest → Prop) (P : σ.Row → Prop) (p : Pool σ L) : Prop where
  rest : R p.store.rest
  rows : ∀ r ∈ p.store.table.rows, P r
  calls : ∀ c ∈ p.sessions, Makes R P c.call
  writes : ∀ c ∈ p.sessions, ∀ w ∈ c.work.writes, P w.after

lemma made_start (hrest : R p.store.rest) (hrows : ∀ r ∈ p.store.table.rows, P r) (hnone : p.sessions = []) :
    Made R P p :=
  ⟨hrest, hrows, fun c hc => by simp [hnone] at hc, fun c hc => by simp [hnone] at hc⟩

lemma after_record {ws : List (Write σ)} {w w' : Write σ} (h : w' ∈ record ws w) :
    w' ∈ ws ∨ w'.after = w.after := by
  rcases mem_record h with ⟨hold, -⟩ | ⟨w₀, -, -, rfl⟩ | ⟨rfl, -⟩
  · exact .inl hold
  · exact .inr rfl
  · exact .inr rfl

/-- A session's next statement. -/
lemma makes_next {c : Session σ L} {w : σ.Input} (hcall : Makes R P c.call) (hrest : R v.rest)
    (hrows : ∀ r ∈ v.table.rows, P r) (hwrites : ∀ w' ∈ c.work.writes, P w'.after) :
    Makes R P (c.next w v).call ∧ ∀ w' ∈ (c.next w v).work.writes, P w'.after := by
  have hwrote : ∀ {w₀ : Write σ} {f : Call σ Unit}, P w₀.after → Makes R P f →
      Makes R P (c.wrote v w₀ f).call ∧ ∀ w' ∈ (c.wrote v w₀ f).work.writes, P w'.after := by
    intro w₀ f hafter hf
    unfold Session.wrote
    split
    · refine ⟨hf, fun w' hw' => ?_⟩
      rcases after_record hw' with hold | heq
      · exact hwrites w' hold
      · rw [heq]; exact hafter
    · exact ⟨hcall, hwrites⟩
  unfold Session.next
  cases hc : c.call with
  | ret a => exact ⟨trivial, hwrites⟩
  | raise e => exact ⟨trivial, hwrites⟩
  | read nm f => rw [hc] at hcall; exact ⟨hcall w v hrest, hwrites⟩
  | create row f => rw [hc] at hcall; exact hwrote (hcall w).1 (hcall w).2
  | update id cond g f =>
    rw [hc] at hcall
    simp only
    split
    · rename_i r hr
      have hrow := (Option.filter_eq_some_iff.mp hr).1
      exact hwrote (hcall.1 r (hrows r (row_eq_some.mp hrow).1)) (hcall.2 _)
    · exact ⟨hcall.2 none, hwrites⟩
  | note n f => rw [hc] at hcall; exact ⟨hcall, hwrites⟩

/-- What an event brings in from outside: a call that makes rows in `P`, a rest in `R`. -/
def Brings (R : σ.Rest → Prop) (P : σ.Row → Prop) (entry : L → Call σ Unit) : Event σ L → Prop
  | .start l => Makes R P (entry l)
  | .others r => R r
  | _ => True

/-- **One event.** -/
theorem made_step {entry : L → Call σ Unit} (h : Made R P p) (hev : Brings R P entry ev)
    (hs : step entry p ev = some p') : Made R P p' := by
  -- a session in another's place
  have hput : ∀ {i : ℕ} {c' : Session σ L} {s' : Store σ}, R s'.rest → (∀ r ∈ s'.table.rows, P r) →
      Makes R P c'.call → (∀ w ∈ c'.work.writes, P w.after) →
      Made R P { p.put i c' with store := s' } := by
    intro i c' s' hrest hrows hcall hwrites
    refine ⟨hrest, hrows, fun c hc => ?_, fun c hc => ?_⟩
    · rcases mem_put hc with hold | rfl
      · exact h.calls c hold
      · exact hcall
    · rcases mem_put hc with hold | rfl
      · exact h.writes c hold
      · exact hwrites
  cases ev with
  | start l =>
    cases hs
    refine ⟨h.rest, h.rows, fun c hc => ?_, fun c hc => ?_⟩
    · rcases List.mem_append.mp hc with hold | hnew
      · exact h.calls c hold
      · rw [List.mem_singleton.mp hnew]; exact hev
    · rcases List.mem_append.mp hc with hold | hnew
      · exact h.writes c hold
      · rw [List.mem_singleton.mp hnew]; exact fun w hw => by cases hw
  | exec i w =>
    obtain ⟨c, v, hc, hv, -, rfl⟩ := step_exec hs
    have hmem : c ∈ p.sessions := List.mem_of_getElem? (running_eq_some.mp hc).1
    have hrest : R v.rest := by
      obtain ⟨t, -, rfl⟩ := Option.map_eq_some_iff.mp hv
      exact h.rest
    have hrows : ∀ r ∈ v.table.rows, P r := by
      intro r hr
      rcases rows_view hv hr with hold | ⟨w', hw', rfl⟩
      · exact h.rows r hold
      · exact h.writes c hmem w' hw'
    obtain ⟨hcall, hwrites⟩ := makes_next (w := w) (h.calls c hmem) hrest hrows (h.writes c hmem)
    split
    · exact hput hrest hrows hcall hwrites
    · exact hput h.rest h.rows hcall hwrites
  | rollback i =>
    obtain ⟨c, hc, rfl⟩ := step_rollback hs
    have hmem : c ∈ p.sessions := List.mem_of_getElem? (running_eq_some.mp hc).1
    exact hput h.rest h.rows (h.calls c hmem) (h.writes c hmem)
  | others r => cases hs; exact ⟨hev, h.rows, h.calls, h.writes⟩

end Splitcore.Isolation
