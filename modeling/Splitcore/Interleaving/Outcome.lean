import Splitcore.Interleaving.Complete

/-!
What a program comes to when it is run alone, part by part; and programs to which a part of the store
makes no difference.
-/

namespace Splitcore.Interleaving

variable {σ : Sig} {α β : Type}

/-- What a program answers or throws, and the store it leaves, when nobody acts in between, its statements
all take the input `w`, and its questions are answered by `o`. -/
def outcome (w : σ.Input) (o : (q : σ.Ask) → Except σ.Err (σ.Ans q)) (p : Prog σ α) (s : σ.Store) :
    Except σ.Err α × σ.Store := (complete w o p s).2

section Outcome

variable {w : σ.Input} {o : (q : σ.Ask) → Except σ.Err (σ.Ans q)} {p : Prog σ α} {s s' : σ.Store} {nm : σ.Name}

@[simp] lemma outcome_ret (a : α) : outcome w o (.ret a) s = (.ok a, s) := rfl

@[simp] lemma outcome_raise (e : σ.Err) : outcome w o (.raise e : Prog σ α) s = (.error e, s) := rfl

@[simp] lemma outcome_ofExcept (r : Except σ.Err α) : outcome w o (.ofExcept r) s = (r, s) := by
  cases r <;> rfl

@[simp] lemma complete_ofExcept (r : Except σ.Err α) : (complete w o (.ofExcept r) s).1 = [] := by
  cases r <;> rfl

@[simp] lemma outcome_query (g : σ.Store → α) : outcome w o (.query nm g) s = (.ok (g s), s) := rfl

@[simp] lemma outcome_request (q : σ.Ask) : outcome w o (.request q) s = (o q, s) :=
  outcome_ofExcept (o q)

lemma outcome_stmt (eff : σ.Input → σ.Store → σ.Store) (k : Except σ.Err (σ.Input × σ.Store) → Prog σ α) :
    outcome w o (.stmt nm eff k) s = outcome w o (k (.ok (w, s))) (eff w s) := rfl

/-- A command that answers leaves what it wrote. -/
lemma outcome_command_ok {c : σ.Input → σ.Store → Except σ.Err (α × σ.Store)} {a : α}
    (h : c w s = .ok (a, s')) : outcome w o (.command nm c) s = (.ok a, s') := by
  unfold Prog.command
  rw [outcome_stmt]
  simp only [h]
  exact outcome_ofExcept _

/-- One that throws leaves the store as it was. -/
lemma outcome_command_error {c : σ.Input → σ.Store → Except σ.Err (α × σ.Store)} {e : σ.Err}
    (h : c w s = .error e) : outcome w o (.command nm c) s = (.error e, s) := by
  unfold Prog.command
  rw [outcome_stmt]
  simp only [h]
  exact outcome_ofExcept _

/-- What comes after goes on from what the first part came to, or not at all. -/
lemma outcome_bind (f : α → Prog σ β) : outcome w o (p.bind f) s =
    match outcome w o p s with
    | (.ok a, s') => outcome w o (f a) s'
    | (.error e, s') => (.error e, s') := by
  induction p generalizing s with
  | ret a => rfl
  | raise e => rfl
  | stmt nm eff k ih => exact ih _
  | ask q k ih => exact ih _

/-- What a program did, and then what came after it. -/
lemma complete_bind_ok {f : α → Prog σ β} {a : α} (h : outcome w o p s = (.ok a, s')) :
    (complete w o (p.bind f) s).1 = (complete w o p s).1 ++ (complete w o (f a) s').1 := by
  induction p generalizing s with
  | ret a =>
    cases h
    rfl
  | raise e => cases h
  | stmt nm eff k ih => exact congrArg (_ :: ·) (ih _ h)
  | ask q k ih => exact congrArg (_ :: _ :: ·) (ih _ h)

lemma outcome_bind_ok {f : α → Prog σ β} {a : α} (h : outcome w o p s = (.ok a, s')) :
    outcome w o (p.bind f) s = outcome w o (f a) s' := by
  rw [outcome_bind, h]

lemma outcome_bind_error {f : α → Prog σ β} {e : σ.Err} (h : outcome w o p s = (.error e, s')) :
    outcome w o (p.bind f) s = (.error e, s') := by
  rw [outcome_bind, h]

@[simp] lemma outcome_attempt : outcome w o p.attempt s = (.ok (outcome w o p s).1, (outcome w o p s).2) := by
  induction p generalizing s with
  | ret a => rfl
  | raise e => rfl
  | stmt nm eff k ih => exact ih _
  | ask q k ih => exact ih _

end Outcome

/-! ### Programs to which a part of the store makes no difference -/

namespace Prog

/-- What `put` changes of the store, the program neither reads nor writes. -/
def Ignores (put : σ.Store → σ.Store) : Prog σ α → Prop
  | .ret _ => True
  | .raise _ => True
  | .stmt _ eff k => (∀ w s, eff w (put s) = put (eff w s)) ∧ (∀ w s, k (.ok (w, put s)) = k (.ok (w, s))) ∧
      ∀ r, Ignores put (k r)
  | .ask _ k => ∀ a, Ignores put (k a)

variable {put : σ.Store → σ.Store} {nm : σ.Name}

lemma ignores_bind {p : Prog σ α} {f : α → Prog σ β} (hp : Ignores put p) (hf : ∀ a, Ignores put (f a)) :
    Ignores put (p.bind f) := by
  induction p with
  | ret a => exact hf a
  | raise e => trivial
  | stmt nm eff k ih =>
    refine ⟨hp.1, fun w s => ?_, fun r => ih r (hp.2.2 r)⟩
    show (k (.ok (w, put s))).bind f = (k (.ok (w, s))).bind f
    rw [hp.2.1]
  | ask q k ih => exact fun a => ih a (hp a)

lemma ignores_attempt {p : Prog σ α} (hp : Ignores put p) : Ignores put p.attempt := by
  induction p with
  | ret a => trivial
  | raise e => trivial
  | stmt nm eff k ih =>
    refine ⟨hp.1, fun w s => ?_, fun r => ih r (hp.2.2 r)⟩
    show (k (.ok (w, put s))).attempt = (k (.ok (w, s))).attempt
    rw [hp.2.1]
  | ask q k ih => exact fun a => ih a (hp a)

lemma ignores_ofExcept {r : Except σ.Err α} : Ignores put (ofExcept r : Prog σ α) := by
  cases r <;> trivial

lemma ignores_query {g : σ.Store → α} (hg : ∀ s, g (put s) = g s) : Ignores put (query nm g) := by
  refine ⟨fun _ _ => rfl, fun w s => ?_, fun r => by cases r <;> trivial⟩
  show ret (g (put s)) = ret (g s)
  rw [hg]

/-- A command that does the same whatever `put` changes. -/
lemma ignores_command {c : σ.Input → σ.Store → Except σ.Err (α × σ.Store)}
    (hc : ∀ w s, c w (put s) = (c w s).map fun r => (r.1, put r.2)) : Ignores put (command nm c) := by
  refine ⟨fun w s => ?_, fun w s => ?_, fun r => ?_⟩
  · simp only [hc]
    rcases c w s with e | ⟨a, s'⟩ <;> rfl
  · simp only [hc]
    rcases c w s with e | ⟨a, s'⟩ <;> rfl
  · rcases r with e | ⟨w, s⟩
    · trivial
    · exact ignores_ofExcept

lemma ignores_request {q : σ.Ask} : Ignores put (request q : Prog σ (σ.Ans q)) := fun _ => ignores_ofExcept

end Prog

/-- **It comes to the same whatever that part is**, and leaves it. -/
theorem outcome_ignores {put : σ.Store → σ.Store} {w : σ.Input} {o : (q : σ.Ask) → Except σ.Err (σ.Ans q)}
    {p : Prog σ α} (h : p.Ignores put) (s : σ.Store) :
    outcome w o p (put s) = ((outcome w o p s).1, put (outcome w o p s).2) := by
  induction p generalizing s with
  | ret a => rfl
  | raise e => rfl
  | stmt nm eff k ih =>
    rw [outcome_stmt, outcome_stmt, h.1, h.2.1]
    exact ih _ (h.2.2 _) _
  | ask q k ih => exact ih _ (h _) s

end Splitcore.Interleaving
