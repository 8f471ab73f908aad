import Mathlib.Tactic.Common

/-!
Runs of a machine: one event after another, each from a state to a next.

What every event keeps, a run keeps. Where every event is paid for by a potential, a run is paid for by the
potential of the state it began in.
-/

namespace Splitcore.Machines

variable {S E : Type}

inductive Runs (next : S → E → S → Prop) : S → List E → S → Prop
  | nil (s : S) : Runs next s [] s
  | cons {s s' s'' : S} {e : E} {es : List E} (hnext : next s e s') (hruns : Runs next s' es s'') :
      Runs next s (e :: es) s''

namespace Runs

variable {next next' : S → E → S → Prop} {s s' s'' : S} {es es' : List E} {P : S → Prop}

lemma append (h : Runs next s es s') (h' : Runs next s' es' s'') : Runs next s (es ++ es') s'' := by
  induction h with
  | nil s => exact h'
  | cons hnext _ ih => exact .cons hnext (ih h')

/-- A run is one of another machine as well, if that one can do what it did. -/
lemma mono_mem (h : Runs next s es s') (hnext : ∀ s e s', e ∈ es → next s e s' → next' s e s') :
    Runs next' s es s' := by
  induction h with
  | nil s => exact .nil s
  | cons hstep _ ih =>
    exact .cons (hnext _ _ _ List.mem_cons_self hstep)
      (ih fun s e s' he => hnext s e s' (List.mem_cons_of_mem _ he))

/-- **An invariant.** -/
theorem keeps (h : Runs next s es s') (hkeeps : ∀ s e s', P s → next s e s' → P s') (hs : P s) : P s' := by
  induction h with
  | nil s => exact hs
  | cons hnext _ ih => exact ih (hkeeps _ _ _ hs hnext)

/-- A run in states that an invariant holds of. -/
lemma along (h : Runs next s es s') (hkeeps : ∀ s e s', P s → next s e s' → P s') (hs : P s) :
    Runs (fun s e s' => P s ∧ next s e s') s es s' := by
  induction h with
  | nil s => exact .nil s
  | cons hnext _ ih => exact .cons ⟨hs, hnext⟩ (ih (hkeeps _ _ _ hs hnext))

/-- **A potential**: the events that cost are no more than the potential went down by. -/
theorem pays (h : Runs next s es s') {potential : S → ℕ} {costs : E → Bool}
    (hpays : ∀ s e s', next s e s' → (if costs e then 1 else 0) + potential s' ≤ potential s) :
    es.countP costs + potential s' ≤ potential s := by
  induction h with
  | nil s => simp
  | cons hnext _ ih =>
    have hstep := hpays _ _ _ hnext
    rw [List.countP_cons]
    omega

end Runs

end Splitcore.Machines
