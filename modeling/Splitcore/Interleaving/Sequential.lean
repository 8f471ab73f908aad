import Splitcore.Interleaving.Complete

/-!
Programs one after another are runs of a pool in which nobody acts in between. So what holds wherever the
pool can get holds before and after each of them.
-/

namespace Splitcore.Interleaving

open Pool

variable {σ : Sig} {L X V : Type}

/-- Runs may always start, and any answer may be given. -/
structure Permits (env : Outside σ L X V) : Prop where
  starts : ∀ l s x, ∃ x', env.start l s x = some x'
  hears : ∀ x q a, env.answers x q a = true

/-- Run `i` goes on with `q`. -/
def Faces (p : Pool σ L X) (i : ℕ) (q : Prog σ Unit) : Prop :=
  ∃ r, p.live i = some r ∧ r.prog = q ∧ r.asked = false

variable {env : Outside σ L X V} {fault : σ.Err → Prop} {s s' : σ.Store} {p : Pool σ L X} {i : ℕ}

/-! ### One event of the run -/

lemma faces_put {r t : Run σ L} {p' : Pool σ L X} (hr : p.live i = some r) (halive : t.alive = true)
    (hasked : t.asked = false) (hruns : p'.runs = (p.put i t).runs) : Faces p' i t.prog := by
  refine ⟨t, ?_, rfl, hasked⟩
  have hlive : p'.live i = (p.put i t).live i := by rw [live, live, hruns]
  rw [hlive, live_put hr]
  simp [halive]

variable {nm : σ.Name} {eff : σ.Input → σ.Store → σ.Store} {k : Except σ.Err (σ.Input × σ.Store) → Prog σ Unit}

lemma step_of_exec (env : Outside σ L X V) (h : Faces p i (.stmt nm eff k)) (w : σ.Input) : ∃ p', step env p (.exec i w) = some p' ∧
    Faces p' i (k (.ok (w, p.store))) ∧ p'.store = eff w p.store := by
  obtain ⟨r, hr, hq, -⟩ := h
  have hstep : step env p (.exec i w) = some { p.put i
      (r.goes (k (.ok (w, p.store))) [.stmt nm w p.store (eff w p.store)]) with store := eff w p.store } := by
    simp only [step, hr, Option.bind_some, hq]
  exact ⟨_, hstep, faces_put (t := r.goes _ _) hr (live_eq_some.mp hr).2 rfl rfl, rfl⟩

lemma step_of_fail (env : Outside σ L X V) (h : Faces p i (.stmt nm eff k)) (e : σ.Err) : ∃ p', step env p (.fail i e) = some p' ∧
    Faces p' i (k (.error e)) ∧ p'.store = p.store := by
  obtain ⟨r, hr, hq, -⟩ := h
  have hstep : step env p (.fail i e) = some (p.put i (r.goes (k (.error e)) [.failed nm e])) := by
    simp only [step, hr, Option.bind_some, hq]
  exact ⟨_, hstep, faces_put (t := r.goes _ _) hr (live_eq_some.mp hr).2 rfl rfl, rfl⟩

/-- Answers to all questions, of which one is given. -/
lemma exists_answers [Nonempty σ.Err] (q : σ.Ask) (a : Except σ.Err (σ.Ans q)) :
    ∃ o : (q : σ.Ask) → Except σ.Err (σ.Ans q), o q = a := by
  classical
  obtain ⟨e⟩ := ‹Nonempty σ.Err›
  exact ⟨Function.update (fun _ => .error e) q a, by rw [Function.update_self]⟩

/-- The question leaves, and its answer arrives. -/
lemma reach_of_ask [Nonempty σ.Err] (henv : Permits env) {q : σ.Ask} {f : Except σ.Err (σ.Ans q) → Prog σ Unit}
    (h : Faces p i (.ask q f)) (a : Except σ.Err (σ.Ans q)) :
    ∃ p', Reach env anyEvent p p' ∧ Faces p' i (f a) ∧ p'.store = p.store := by
  obtain ⟨r, hr, hq, hasked⟩ := h
  obtain ⟨o, rfl⟩ := exists_answers q a
  obtain ⟨p₁, hp₁⟩ : ∃ p₁ : Pool σ L X, p₁ = { p.put i (r.sent q) with out := env.send r.label q p.out } :=
    ⟨_, rfl⟩
  have hsend : step env p (.send i) = some p₁ := by
    simp only [step, hr, Option.bind_some, hq, hasked, hp₁]
  have hlive : p₁.live i = some (r.sent q) := by
    have hput : p₁.live i = (p.put i (r.sent q)).live i := by rw [hp₁]; rfl
    rw [hput, live_put hr]
    simp [Run.sent, (live_eq_some.mp hr).2]
  have hanswer : step env p₁ (.answer i o) =
      some (p₁.put i ((r.sent q).goes (f (o q)) [.answered q (o q)])) := by
    simp only [step, hlive, Option.bind_some, Run.sent, hq, henv.hears, if_true]
  refine ⟨_, (Reach.refl.head trivial hanswer).head trivial hsend,
    faces_put (t := (r.sent q).goes _ _) hlive (live_eq_some.mp hlive).2 rfl rfl, ?_⟩
  rw [hp₁]
  rfl

/-! ### The run to its end -/

/-- A run that is under way gets to its end. -/
lemma reach_rest [Nonempty σ.Err] (henv : Permits env) {q : Prog σ Unit} {ds : List (Did σ)}
    {res : Except σ.Err Unit} (h : Ends fault q s ds res s') (hq : Faces p i q) (hs : p.store = s) :
    ∃ p', Reach env anyEvent p p' ∧ p'.store = s' := by
  induction h generalizing p with
  | ret a s => exact ⟨p, .refl, hs⟩
  | raise e s => exact ⟨p, .refl, hs⟩
  | stmt w _ ih =>
    subst hs
    obtain ⟨p₁, hstep, hfaces, hstore⟩ := step_of_exec env hq w
    obtain ⟨p', hp', hs'⟩ := ih hfaces hstore
    exact ⟨p', hp'.head trivial hstep, hs'⟩
  | @failed _ _ _ _ _ _ _ e _ _ ih =>
    obtain ⟨p₁, hstep, hfaces, hstore⟩ := step_of_fail env hq e
    obtain ⟨p', hp', hs'⟩ := ih hfaces (hstore.trans hs)
    exact ⟨p', hp'.head trivial hstep, hs'⟩
  | ask a _ ih =>
    obtain ⟨p₁, hp₁, hfaces, hstore⟩ := reach_of_ask henv hq a
    obtain ⟨p', hp', hs'⟩ := ih hfaces (hstore.trans hs)
    exact ⟨p', hp₁.trans hp', hs'⟩

/-- **What a program does alone, a run of it does.** -/
theorem reach_ends [Nonempty σ.Err] (henv : Permits env) {l : L} {ds : List (Did σ)} {res : Except σ.Err Unit}
    (h : Ends fault (env.entry l) s ds res s') (hs : p.store = s) :
    ∃ p', Reach env anyEvent p p' ∧ p'.store = s' := by
  obtain ⟨x, hx⟩ := henv.starts l p.store p.out
  have hstep : step env p (.start l) =
      some { p with out := x, runs := p.runs ++ [.new l p.store (env.entry l)] } := by
    simp only [step, hx, Option.map_some]
  have hfaces : Faces { p with out := x, runs := p.runs ++ [.new l p.store (env.entry l)] } p.runs.length
      (env.entry l) :=
    ⟨_, live_eq_some.mpr ⟨List.getElem?_concat_length, rfl⟩, rfl, rfl⟩
  obtain ⟨p', hp', hstore⟩ := reach_rest henv h hfaces hs
  exact ⟨p', hp'.head trivial hstep, hstore⟩

/-- So do programs one after another. -/
theorem reach_history [Nonempty σ.Err] (henv : Permits env) {ds : List (Done σ L Unit)}
    (h : History fault env.entry s ds s') (hs : p.store = s) : ∃ p', Reach env anyEvent p p' ∧ p'.store = s' := by
  induction h with
  | nil => exact ⟨p, .refl, hs⟩
  | snoc _ hd ih =>
    obtain ⟨p₁, hp₁, hs₁⟩ := ih
    obtain ⟨p₂, hp₂, hs₂⟩ := reach_ends henv hd hs₁
    exact ⟨p₂, hp₁.trans hp₂, hs₂⟩

end Splitcore.Interleaving
