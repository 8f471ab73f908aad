import Splitcore.Interleaving.Complete

/-!
What a program comes to when it runs alone and nothing fails by itself: a rule for each way a program is
put together.

`Yields ok Q p s` says that from `s`, whatever inputs the statements take and whatever answers allowed by
`ok` arrive, `p` ends as `Q` says.
-/

namespace Splitcore.Interleaving

variable {σ : Sig} {α β : Type}

/-- Statements do not fail without a reason. -/
def Faultless (_ : σ.Err) : Prop := False

/-- Which answers may arrive. -/
abbrev Replies (σ : Sig) : Type := (q : σ.Ask) → Except σ.Err (σ.Ans q) → Prop

/-- All answers in the log are allowed. -/
def Heeds (ok : Replies σ) (ds : List (Did σ)) : Prop := ∀ q a, .answered q a ∈ ds → ok q a

def Yields (ok : Replies σ) (Q : Except σ.Err α → σ.Store → Prop) : Prog σ α → σ.Store → Prop
  | .ret a, s => Q (.ok a) s
  | .raise e, s => Q (.error e) s
  | .stmt _ eff k, s => ∀ w, Yields ok Q (k (.ok (w, s))) (eff w s)
  | .ask q k, s => ∀ a, ok q a → Yields ok Q (k a) s

variable {ok : Replies σ} {Q Q' : Except σ.Err α → σ.Store → Prop} {p : Prog σ α} {s s' : σ.Store} {nm : σ.Name}

/-! ### Rules -/

lemma Yields.mono (h : Yields ok Q p s) (hQ : ∀ r s', Q r s' → Q' r s') : Yields ok Q' p s := by
  induction p generalizing s with
  | ret a => exact hQ _ _ h
  | raise e => exact hQ _ _ h
  | stmt nm eff k ih => exact fun w => ih _ (h w)
  | ask q k ih => exact fun a ha => ih a (h a ha)

/-- What comes after goes on from what the first part answered; an exception passes it by. -/
lemma yields_bind {R : Except σ.Err β → σ.Store → Prop} {f : α → Prog σ β}
    (h : Yields ok (fun r s' => match r with
      | .ok a => Yields ok R (f a) s'
      | .error e => R (.error e) s') p s) : Yields ok R (p.bind f) s := by
  induction p generalizing s with
  | ret a => exact h
  | raise e => exact h
  | stmt nm eff k ih => exact fun w => ih _ (h w)
  | ask q k ih => exact fun a ha => ih a (h a ha)

lemma yields_ofExcept {r : Except σ.Err α} (h : Q r s) : Yields ok Q (.ofExcept r) s := by
  cases r <;> exact h

lemma yields_query {g : σ.Store → α} (h : Q (.ok (g s)) s) : Yields ok Q (.query nm g) s := fun _ => h

/-- A command takes effect and answers, or throws and leaves the store as it was. -/
lemma yields_command {c : σ.Input → σ.Store → Except σ.Err (α × σ.Store)}
    (hok : ∀ w a s', c w s = .ok (a, s') → Q (.ok a) s') (herror : ∀ w e, c w s = .error e → Q (.error e) s) :
    Yields ok Q (.command nm c) s := by
  intro w
  rcases h : c w s with e | ⟨a, s'⟩ <;> simp only [h]
  · exact herror w e h
  · exact hok w a s' h

lemma yields_request {q : σ.Ask} {R : Except σ.Err (σ.Ans q) → σ.Store → Prop} (h : ∀ a, ok q a → R a s) :
    Yields ok R (.request q) s :=
  fun a ha => yields_ofExcept (h a ha)

/-! ### Runs -/

/-- **The rules are sound**: a run in which nothing fails by itself, and whose answers are allowed, ends so. -/
theorem Yields.ends {ds : List (Did σ)} {res : Except σ.Err α} (h : Yields ok Q p s)
    (hends : Ends Faultless p s ds res s') (hds : Heeds ok ds) : Q res s' := by
  induction hends with
  | ret a s => exact h
  | raise e s => exact h
  | stmt w _ ih => exact ih (h w) fun q a hqa => hds q a (List.mem_cons_of_mem _ hqa)
  | failed he => exact he.elim
  | ask a _ ih =>
    exact ih (h a (hds _ a (by simp))) fun q b hqb => hds q b (by simp [hqb])

section Perform

variable {L : Type} {o : (q : σ.Ask) → Except σ.Err (σ.Ans q)} (ho : ∀ q, ok q (o q))
include ho

lemma heeds_complete {w : σ.Input} : Heeds ok (complete w o p s).1 := by
  induction p generalizing s with
  | ret a => exact fun q a hd => by cases hd
  | raise e => exact fun q a hd => by cases hd
  | stmt nm eff k ih =>
    intro q a hd
    rcases List.mem_cons.mp hd with hd | hd
    · cases hd
    · exact ih _ q a hd
  | ask q k ih =>
    intro q' a hd
    simp only [complete, List.mem_cons, reduceCtorEq, false_or] at hd
    rcases hd with hd | hd
    · cases hd
      exact ho q
    · exact ih _ q' a hd

lemma heeds_perform {entry : L → Prog σ α} {acts : List (L × σ.Input)} {ds : List (Done σ L α)}
    (hds : ∀ d ∈ ds, Heeds ok d.log) : ∀ d ∈ (perform entry o ds s acts).1, Heeds ok d.log := by
  induction acts generalizing ds s with
  | nil => exact hds
  | cons act acts ih =>
    refine ih fun d hd => ?_
    rcases List.mem_append.mp hd with hd | hd
    · exact hds d hd
    · rw [List.mem_singleton.mp hd]
      exact heeds_complete ho

end Perform

end Splitcore.Interleaving
