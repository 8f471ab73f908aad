import Splitcore.Interleaving.Monitor

/-!
Where the error a run ends in comes from.

A program meets errors of others, which a statement or a question failed with, and throws some of its
own. A monitor that remembers all a run did tells the two apart.
-/

namespace Splitcore.Interleaving

variable {σ : Sig} {L X V α β : Type}

/-- A statement or a question failed with the error. -/
def Receives (log : List (Did σ)) (e : σ.Err) : Prop :=
  (∃ nm, .failed nm e ∈ log) ∨ ∃ q, .answered q (.error e) ∈ log

lemma receives_failed {log : List (Did σ)} {nm : σ.Name} {e : σ.Err} :
    Receives (log ++ [.failed nm e]) e := .inl ⟨nm, by simp⟩

lemma receives_answered {log : List (Did σ)} {q : σ.Ask} {e : σ.Err} :
    Receives (log ++ [.answered q (.error e)]) e := .inr ⟨q, by simp⟩

/-- Remembers everything, and forbids nothing but an end that is not in `post`. -/
def logging (post : L → List (Did σ) → Except σ.Err Unit → Prop) : Monitor σ L where
  State := L × List (Did σ)
  init l _ := (l, [])
  next g d := (g.1, g.2 ++ [d])
  rely _ _ _ := True
  guar _ _ _ _ _ := True
  post g r := post g.1 g.2 r

variable {post : L → List (Did σ) → Except σ.Err Unit → Prop}

lemma logging_at (r : Run σ L) : (logging post).at_ r = (r.label, r.log) := by
  refine Monitor.at_log (M := logging post) (P := fun g ds => g = (r.label, ds)) r rfl fun g ds d hg => ?_
  rw [hg]
  rfl

/-- The label stays. -/
lemma logging_label {Q : L × List (Did σ) → Except σ.Err α → Prop} {p : Prog σ α} {g : L × List (Did σ)}
    (h : Obeys (logging post) Q p g) : Obeys (logging post) (fun g' r => g'.1 = g.1 ∧ Q g' r) p g := by
  induction p generalizing g with
  | ret a => exact ⟨rfl, h⟩
  | raise e => exact ⟨rfl, h⟩
  | stmt nm eff k ih =>
    refine ⟨fun w s hr => ?_, fun e => ih _ (h.2 e)⟩
    obtain ⟨hguar, hok, hlost⟩ := h.1 w s hr
    exact ⟨hguar, ih _ hok, fun e => ih _ (hlost e)⟩
  | ask q k ih => exact ⟨h.1, fun a => ih a (h.2 a)⟩

/-- **What a run ends in** is in `post`. -/
theorem logging_ended {env : Outside σ L X V} {ok : Pool σ L X → Event σ L V → Prop}
    {p₀ p : Pool σ L X} (hentry : ∀ l, Obeys (logging post) (logging post).post (env.entry l) (l, []))
    (hruns : p₀.runs = []) (hreach : Reach env ok p₀ p) {r : Run σ L} (hr : r ∈ p.runs)
    {res : Except σ.Err Unit} (hend : r.prog = .ofExcept res) : post r.label r.log res := by
  have hwatched : (logging post).WatchesAll p := by
    refine hreach.keeps (fun p ev p' h _ hs => ?_) fun r hr => by simp [hruns] at hr
    refine Monitor.watchesAll_step h (fun l _ _ => hentry l) ?_ hs
    cases ev <;> simp [Monitor.Relies, logging]
  have hr' := hwatched r hr
  unfold Monitor.Watches at hr'
  split at hr'
  · obtain ⟨q, k, g, hq, -⟩ := hr'
    rw [hend] at hq
    cases res <;> cases hq
  · rw [hend, obeys_ofExcept, logging_at] at hr'
    exact hr'

theorem logging_raised {env : Outside σ L X V} {ok : Pool σ L X → Event σ L V → Prop}
    {p₀ p : Pool σ L X} (hentry : ∀ l, Obeys (logging post) (logging post).post (env.entry l) (l, []))
    (hruns : p₀.runs = []) (hreach : Reach env ok p₀ p) {r : Run σ L} (hr : r ∈ p.runs) {e : σ.Err}
    (hraise : r.prog = .raise e) : post r.label r.log (.error e) :=
  logging_ended hentry hruns hreach hr hraise

/-! ### Programs that throw none of some errors -/

/-- Errors in `E` that the program ends in, it received. -/
def Innocent (E : σ.Err → Prop) (post : L → List (Did σ) → Except σ.Err Unit → Prop) (p : Prog σ α) :
    Prop :=
  ∀ g, Obeys (logging post) (fun g r => ∀ e, r = .error e → E e → Receives g.2 e) p g

variable {E : σ.Err → Prop} {nm : σ.Name}

lemma innocent_ret {a : α} : Innocent E post (.ret a) := fun _ _ h => by cases h

lemma innocent_raise {e : σ.Err} (he : ¬ E e) : Innocent E post (.raise e : Prog σ α) :=
  fun _ _ h hE => by cases h; exact absurd hE he

lemma innocent_bind {p : Prog σ α} {k : α → Prog σ β} (hp : Innocent E post p)
    (hk : ∀ a, Innocent E post (k a)) : Innocent E post (p.bind k) := by
  refine fun g => obeys_bind.mpr (Obeys.mono (hp g) fun g r hr => ?_)
  rcases r with e | a
  · exact fun e' h => by cases h; exact hr e rfl
  · exact hk a g

/-- An error that was caught does not count. -/
lemma innocent_attempt {p : Prog σ α} (hp : Innocent E post p) : Innocent E post p.attempt :=
  fun g => obeys_attempt.mpr (Obeys.mono (hp g) fun _ _ _ _ h => by cases h)

lemma innocent_command {c : σ.Input → σ.Store → Except σ.Err (α × σ.Store)}
    (hc : ∀ w s e, c w s = .error e → ¬ E e) : Innocent E post (.command nm c) := by
  refine fun g => obeys_tried (fun _ _ _ _ _ _ => ⟨trivial, fun _ h => by cases h⟩)
    (fun w s e _ he => ⟨trivial, fun e' h hE => ?_⟩) (fun _ _ _ e e' h _ => ?_) fun e e' h _ => ?_
  · cases h
    exact absurd hE (hc w s e he)
  · cases h
    exact receives_failed
  · cases h
    exact receives_failed

lemma innocent_request {q : σ.Ask} : Innocent E post (.request q : Prog σ (σ.Ans q)) := by
  refine fun g => obeys_request trivial fun a e h _ => ?_
  cases h
  exact receives_answered

end Splitcore.Interleaving
