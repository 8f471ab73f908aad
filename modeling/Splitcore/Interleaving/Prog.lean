import Mathlib.Tactic.Common

/-!
Asynchronous functions as trees.

A function that awaits a database or a third party is suspended at each `await`, and other
runs act in between. What matters about it is the next thing it does: one atomic statement
on the shared store, or one question to somebody else. A program is the tree of these.
Exceptions end it unless an `attempt` around it turns them into values.
-/

namespace Splitcore.Interleaving

/-- What programs are written over: the names of their statements, the store these act on,
what a statement takes from outside the store (a clock, random ids), the questions put to
third parties, the answers to each, and the errors that are thrown. -/
structure Sig where
  Name : Type
  Store : Type
  Input : Type
  Ask : Type
  Ans : Ask → Type
  Err : Type

variable {σ : Sig} {α β γ : Type}

/-- The rest of a run. A statement that succeeds goes on with its input and the store it
found; one that fails goes on with the error. -/
inductive Prog (σ : Sig) (α : Type) where
  | ret (a : α)
  | raise (e : σ.Err)
  | stmt (nm : σ.Name) (eff : σ.Input → σ.Store → σ.Store)
      (k : Except σ.Err (σ.Input × σ.Store) → Prog σ α)
  | ask (q : σ.Ask) (k : Except σ.Err (σ.Ans q) → Prog σ α)

namespace Prog

def bind : Prog σ α → (α → Prog σ β) → Prog σ β
  | .ret a, f => f a
  | .raise e, _ => .raise e
  | .stmt nm eff k, f => .stmt nm eff fun r => (k r).bind f
  | .ask q k, f => .ask q fun r => (k r).bind f

instance : Monad (Prog σ) where
  pure := .ret
  bind := bind

/-- `try { p } catch (e) { .. }`: the error becomes a value. -/
def attempt : Prog σ α → Prog σ (Except σ.Err α)
  | .ret a => .ret (.ok a)
  | .raise e => .ret (.error e)
  | .stmt nm eff k => .stmt nm eff fun r => (k r).attempt
  | .ask q k => .ask q fun r => (k r).attempt

def ofExcept : Except σ.Err α → Prog σ α
  | .ok a => .ret a
  | .error e => .raise e

/-- A statement that reads. -/
def query (nm : σ.Name) (f : σ.Store → α) : Prog σ α :=
  .stmt nm (fun _ s => s) fun
    | .ok (_, s) => .ret (f s)
    | .error e => .raise e

/-- A statement or a transaction: it answers and changes the store, or throws and leaves the
store as it was. -/
def command (nm : σ.Name) (f : σ.Input → σ.Store → Except σ.Err (α × σ.Store)) : Prog σ α :=
  .stmt nm (fun w s => match f w s with | .ok (_, s') => s' | .error _ => s) fun
    | .ok (w, s) => ofExcept ((f w s).map Prod.fst)
    | .error e => .raise e

/-- A question to a third party. -/
def request (q : σ.Ask) : Prog σ (σ.Ans q) := .ask q ofExcept

@[simp] lemma pure_eq (a : α) : (pure a : Prog σ α) = .ret a := rfl
@[simp] lemma bind_eq (p : Prog σ α) (f : α → Prog σ β) : p >>= f = p.bind f := rfl
@[simp] lemma map_eq (f : α → β) (p : Prog σ α) : f <$> p = p.bind fun a => .ret (f a) := rfl
@[simp] lemma ret_bind (a : α) (f : α → Prog σ β) : (Prog.ret a).bind f = f a := rfl
@[simp] lemma raise_bind (e : σ.Err) (f : α → Prog σ β) : (Prog.raise e).bind f = .raise e := rfl

@[simp] lemma ofExcept_ok (a : α) : (ofExcept (.ok a) : Prog σ α) = .ret a := rfl
@[simp] lemma ofExcept_error (e : σ.Err) : (ofExcept (.error e) : Prog σ α) = .raise e := rfl

lemma bind_assoc (p : Prog σ α) (f : α → Prog σ β) (g : β → Prog σ γ) :
    (p.bind f).bind g = p.bind fun a => (f a).bind g := by
  induction p with
  | ret a => rfl
  | raise e => rfl
  | stmt nm eff k ih => simp only [bind]; congr 1; funext r; exact ih r
  | ask q k ih => simp only [bind]; congr 1; funext r; exact ih r

/-! ### Programs that leave something alone -/

/-- Every statement is one of `S` and leaves what `f` shows of the store; every question is one
of `A`. -/
def Spares (S : σ.Name → Prop) (A : σ.Ask → Prop) (f : σ.Store → γ) : Prog σ α → Prop
  | .ret _ => True
  | .raise _ => True
  | .stmt nm eff k => S nm ∧ (∀ w s, f (eff w s) = f s) ∧ ∀ r, Spares S A f (k r)
  | .ask q k => A q ∧ ∀ a, Spares S A f (k a)

section Spares

variable {S : σ.Name → Prop} {A : σ.Ask → Prop} {f : σ.Store → γ} {nm : σ.Name}

lemma spares_bind {p : Prog σ α} {k : α → Prog σ β} (hp : Spares S A f p)
    (hk : ∀ a, Spares S A f (k a)) : Spares S A f (p.bind k) := by
  induction p with
  | ret a => exact hk a
  | raise e => trivial
  | stmt nm eff k ih => exact ⟨hp.1, hp.2.1, fun r => ih r (hp.2.2 r)⟩
  | ask q k ih => exact ⟨hp.1, fun a => ih a (hp.2 a)⟩

lemma Spares.mono {S' : σ.Name → Prop} {A' : σ.Ask → Prop} {p : Prog σ α} (h : Spares S A f p)
    (hS : ∀ nm, S nm → S' nm) (hA : ∀ q, A q → A' q) : Spares S' A' f p := by
  induction p with
  | ret a => trivial
  | raise e => trivial
  | stmt nm eff k ih => exact ⟨hS nm h.1, h.2.1, fun r => ih r (h.2.2 r)⟩
  | ask q k ih => exact ⟨hA q h.1, fun a => ih a (h.2 a)⟩

lemma spares_attempt {p : Prog σ α} (hp : Spares S A f p) : Spares S A f p.attempt := by
  induction p with
  | ret a => trivial
  | raise e => trivial
  | stmt nm eff k ih => exact ⟨hp.1, hp.2.1, fun r => ih r (hp.2.2 r)⟩
  | ask q k ih => exact ⟨hp.1, fun a => ih a (hp.2 a)⟩

lemma spares_ofExcept {r : Except σ.Err α} : Spares S A f (ofExcept r : Prog σ α) := by
  cases r <;> trivial

lemma spares_query {g : σ.Store → α} (hS : S nm) : Spares S A f (query nm g) :=
  ⟨hS, fun _ _ => rfl, fun r => by cases r <;> trivial⟩

lemma spares_command {c : σ.Input → σ.Store → Except σ.Err (α × σ.Store)} (hS : S nm)
    (hc : ∀ w s a s', c w s = .ok (a, s') → f s' = f s) : Spares S A f (command nm c) := by
  refine ⟨hS, fun w s => ?_, fun r => ?_⟩
  · show f (match c w s with | .ok (_, s') => s' | .error _ => s) = f s
    rcases h : c w s with e | ⟨a, s'⟩
    · rfl
    · exact hc w s a s' h
  · cases r
    · trivial
    · exact spares_ofExcept

lemma spares_request {q : σ.Ask} (hq : A q) : Spares S A f (request q : Prog σ (σ.Ans q)) :=
  ⟨hq, fun _ => spares_ofExcept⟩

/-- A program that may do anything. -/
lemma spares_any (p : Prog σ α) : Spares (fun _ => True) (fun _ => True) (fun _ => ()) p := by
  induction p with
  | ret a => trivial
  | raise e => trivial
  | stmt nm eff k ih => exact ⟨trivial, fun _ _ => rfl, ih⟩
  | ask q k ih => exact ⟨trivial, ih⟩

end Spares

/-! ### What every statement does -/

/-- Every statement does what `P` allows at it, wherever the program gets. -/
def Each (P : σ.Name → σ.Store → σ.Store → Prop) : Prog σ α → Prop
  | .ret _ => True
  | .raise _ => True
  | .stmt nm eff k => (∀ w s, P nm s (eff w s)) ∧ ∀ r, Each P (k r)
  | .ask _ k => ∀ a, Each P (k a)

section Each

variable {P : σ.Name → σ.Store → σ.Store → Prop} {nm : σ.Name}

lemma each_bind {p : Prog σ α} {k : α → Prog σ β} (hp : Each P p) (hk : ∀ a, Each P (k a)) :
    Each P (p.bind k) := by
  induction p with
  | ret a => exact hk a
  | raise e => trivial
  | stmt nm eff k ih => exact ⟨hp.1, fun r => ih r (hp.2 r)⟩
  | ask q k ih => exact fun a => ih a (hp a)

lemma Each.mono {P' : σ.Name → σ.Store → σ.Store → Prop} {p : Prog σ α} (h : p.Each P)
    (hP : ∀ nm s s', P nm s s' → P' nm s s') : p.Each P' := by
  induction p with
  | ret a => trivial
  | raise e => trivial
  | stmt nm eff k ih => exact ⟨fun w s => hP _ _ _ (h.1 w s), fun r => ih r (h.2 r)⟩
  | ask q k ih => exact fun a => ih a (h a)

lemma Each.and {P' : σ.Name → σ.Store → σ.Store → Prop} {p : Prog σ α} (h : p.Each P) (h' : p.Each P') :
    p.Each fun nm s s' => P nm s s' ∧ P' nm s s' := by
  induction p with
  | ret a => trivial
  | raise e => trivial
  | stmt nm eff k ih => exact ⟨fun w s => ⟨h.1 w s, h'.1 w s⟩, fun r => ih r (h.2 r) (h'.2 r)⟩
  | ask q k ih => exact fun a => ih a (h a) (h' a)

lemma Spares.each {S : σ.Name → Prop} {A : σ.Ask → Prop} {f : σ.Store → γ} {p : Prog σ α} (h : p.Spares S A f) :
    p.Each fun _ s s' => f s' = f s := by
  induction p with
  | ret a => trivial
  | raise e => trivial
  | stmt nm eff k ih => exact ⟨h.2.1, fun r => ih r (h.2.2 r)⟩
  | ask q k ih => exact fun a => ih a (h.2 a)

lemma each_attempt {p : Prog σ α} (hp : Each P p) : Each P p.attempt := by
  induction p with
  | ret a => trivial
  | raise e => trivial
  | stmt nm eff k ih => exact ⟨hp.1, fun r => ih r (hp.2 r)⟩
  | ask q k ih => exact fun a => ih a (hp a)

lemma each_ofExcept {r : Except σ.Err α} : Each P (ofExcept r : Prog σ α) := by
  cases r <;> trivial

lemma each_request {q : σ.Ask} : Each P (request q : Prog σ (σ.Ans q)) := fun _ => each_ofExcept

variable (hskip : ∀ s, P nm s s)
include hskip

lemma each_query {g : σ.Store → α} : Each P (query nm g) :=
  ⟨fun _ s => hskip s, fun r => by cases r <;> trivial⟩

lemma each_command {c : σ.Input → σ.Store → Except σ.Err (α × σ.Store)}
    (hc : ∀ w s a s', c w s = .ok (a, s') → P nm s s') : Each P (command nm c) := by
  refine ⟨fun w s => ?_, fun r => ?_⟩
  · show P nm s (match c w s with | .ok (_, s') => s' | .error _ => s)
    rcases h : c w s with e | ⟨a, s'⟩
    · exact hskip s
    · exact hc w s a s' h
  · cases r
    · trivial
    · exact each_ofExcept

end Each

end Prog

end Splitcore.Interleaving
