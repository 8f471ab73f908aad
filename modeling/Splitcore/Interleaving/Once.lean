import Splitcore.Interleaving.Monitor

/-!
Statements that can only be executed once: each finds the store as no store is any more after it.
-/

namespace Splitcore.Interleaving

variable {σ : Sig} {L X V : Type} {env : Outside σ L X V} {P : σ.Name → σ.Store → σ.Store → Prop}
  {G : σ.Store → σ.Store → Prop} {p p' p₀ : Pool σ L X} {s₀ : σ.Store} {ev : Event σ L V}

/-- Every statement does what `P` allows at it, and everything so far happened in the order `G`. -/
structure Allowed (P : σ.Name → σ.Store → σ.Store → Prop) (G : σ.Store → σ.Store → Prop) (s₀ : σ.Store)
    (p : Pool σ L X) : Prop where
  each : ∀ r ∈ p.runs, r.prog.Each P
  since : G s₀ p.store
  between : Between G s₀ p

lemma Allowed.executes {i : ℕ} {r : Run σ L} {nm : σ.Name} {w : σ.Input} (h : Allowed P G s₀ p)
    (hr : p.live i = some r) (hex : Executes p p' r nm w) : P nm p.store p'.store := by
  obtain ⟨eff, k, hp, hstore⟩ := hex
  have hprog := h.each r (Monitor.mem_of_live hr)
  rw [hp] at hprog
  rw [hstore]
  exact hprog.1 w p.store

section Order

variable (hrefl : ∀ s, G s s) (htrans : ∀ s₁ s₂ s₃, G s₁ s₂ → G s₂ s₃ → G s₁ s₃)
  (hP : ∀ nm s s', P nm s s' → G s s') (hmove : ∀ v s x s' x', env.move v s x = some (s', x') → G s s')

include hrefl hP hmove in
/-- An event keeps to the order. -/
lemma Allowed.order (h : Allowed P G s₀ p) (hs : step env p ev = some p') : G p.store p'.store := by
  cases step_concerns hs with
  | start l hev hruns hstore => exact hstore ▸ hrefl _
  | goes i r r' ds htells hr hruns hgoes hadds =>
    cases hadds with
    | stmt nm w hev hex => exact hP nm _ _ (h.executes hr hex)
    | lost nm w e hev hex => exact hP nm _ _ (h.executes hr hex)
    | failed hstore | asked hstore | answered hstore | nothing hstore => exact hstore ▸ hrefl _
  | move v hev hruns =>
    subst hev
    obtain ⟨s, x, hv, rfl⟩ := step_move hs
    exact hmove v _ _ _ _ hv

variable (hentry : ∀ l, (env.entry l).Each P)
include hrefl htrans hP hmove hentry

lemma allowed_step (h : Allowed P G s₀ p) (hs : step env p ev = some p') : Allowed P G s₀ p' := by
  have horder := h.order hrefl hP hmove hs
  exact ⟨each_step h.each (fun l _ => hentry l) hs, htrans _ _ _ h.since horder,
    between_step hrefl htrans h.since horder h.between hs⟩

end Order

/-! ### Once -/

/-- The run executed a statement that is to be executed once. -/
def Fired (Fires : σ.Name → σ.Store → σ.Store → Prop) (r : Run σ L) : Prop :=
  ∃ nm w s s', .stmt nm w s s' ∈ r.log ∧ Fires nm s s'

/-- What a statement that is to be executed once finds, and leaves. -/
structure Spending (P Fires : σ.Name → σ.Store → σ.Store → Prop) (G : σ.Store → σ.Store → Prop)
    (Spent : σ.Store → Prop) : Prop where
  fires : ∀ nm s s', P nm s s' → Fires nm s s' → ¬Spent s ∧ Spent s'
  lasts : ∀ s s', G s s' → Spent s → Spent s'

variable {Fires : σ.Name → σ.Store → σ.Store → Prop} {Spent : σ.Store → Prop}

/-- One run has executed it at most, and once it has, the store shows it. -/
structure AtMostOnce (Fires : σ.Name → σ.Store → σ.Store → Prop) (Spent : σ.Store → Prop) (p : Pool σ L X) : Prop where
  spent : ∀ r ∈ p.runs, Fired Fires r → Spent p.store
  once : ∀ (i j : ℕ) (r r' : Run σ L), p.runs[i]? = some r → p.runs[j]? = some r' → Fired Fires r → Fired Fires r' → i = j

/-- A run that has executed it did so before, or executes it now. -/
lemma fired_step {i : ℕ} {r' : Run σ L} (h : Allowed P G s₀ p) (hs : step env p ev = some p')
    (hr' : p'.runs[i]? = some r') (hfired : Fired Fires r') :
    (∃ r, p.runs[i]? = some r ∧ Fired Fires r) ∨
      ev.about = some i ∧ ∃ nm, P nm p.store p'.store ∧ Fires nm p.store p'.store := by
  obtain ⟨nm, w, s, s', hmem, hfires⟩ := hfired
  rcases step_run hs hr' with ⟨hold, -⟩ | ⟨l, -, -, rfl⟩ | ⟨r, ds, hlive, hgoes, hadds⟩
  · exact .inl ⟨r', hold, nm, w, s, s', hmem, hfires⟩
  · cases hmem
  rw [hgoes.log, List.mem_append] at hmem
  rcases hmem with hmem | hmem
  · exact .inl ⟨r, (live_eq_some.mp hlive).1, nm, w, s, s', hmem, hfires⟩
  · obtain ⟨rfl, rfl⟩ := hadds.stmt_mem hmem
    have habout : ∀ {nm' : σ.Name} {w' : σ.Input}, executes ev = some i → Executes p p' r nm' w' →
        .stmt nm w p.store p'.store ∈ [Did.stmt nm' w' p.store p'.store] →
        ev.about = some i ∧ ∃ nm, P nm p.store p'.store ∧ Fires nm p.store p'.store := by
      intro nm' w' hev hex hd
      obtain ⟨rfl, -⟩ := Did.stmt.inj (List.mem_singleton.mp hd)
      refine ⟨?_, nm, h.executes hlive hex, hfires⟩
      cases ev <;> cases hev <;> rfl
    cases hadds with
    | stmt nm' w' hev hex => exact .inr (habout hev hex hmem)
    | lost nm' w' e hev hex => exact .inr (habout hev hex (by simpa using hmem))
    | failed | asked | answered | nothing => simp at hmem

/-- **At most once.** -/
theorem atMostOnce_step (hspending : Spending P Fires G Spent) (h : Allowed P G s₀ p) (horder : G p.store p'.store)
    (honce : AtMostOnce Fires Spent p) (hs : step env p ev = some p') : AtMostOnce Fires Spent p' := by
  have hold : ∀ {i : ℕ} {r : Run σ L}, p.runs[i]? = some r → Fired Fires r → Spent p.store := fun hr =>
    honce.spent _ (List.mem_of_getElem? hr)
  refine ⟨fun r' hr' hfired => ?_, fun i j r r' hr hr' hfired hfired' => ?_⟩
  · obtain ⟨i, hi⟩ := List.getElem?_of_mem hr'
    rcases fired_step h hs hi hfired with ⟨r, hr, hbefore⟩ | ⟨-, nm, hP, hnow⟩
    · exact hspending.lasts _ _ horder (hold hr hbefore)
    · exact (hspending.fires nm _ _ hP hnow).2
  · rcases fired_step h hs hr hfired with ⟨q, hq, hbefore⟩ | ⟨hi, nm, hP, hnow⟩ <;>
      rcases fired_step h hs hr' hfired' with ⟨q', hq', hbefore'⟩ | ⟨hj, nm', hP', hnow'⟩
    · exact honce.once i j q q' hq hq' hbefore hbefore'
    · exact absurd (hold hq hbefore) (hspending.fires nm' _ _ hP' hnow').1
    · exact absurd (hold hq' hbefore') (hspending.fires nm _ _ hP hnow).1
    · exact Option.some.inj (hi.symm.trans hj)

end Splitcore.Interleaving
