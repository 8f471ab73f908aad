import Splitcore.Interleaving.Pool

/-!
Programs one after another, each run to its end before the next begins.

A history is what they did, oldest first. What it says about the past is said with `Since`: at some
moment this happened, and from then on only that.
-/

namespace Splitcore.Interleaving

variable {σ : Sig} {L α β : Type}

/-! ### One program -/

/-- What a program does from a store when nobody acts in between: its log, what it comes to, and the
store it leaves. A statement can fail by a fault, without effect. -/
inductive Ends (fault : σ.Err → Prop) :
    Prog σ α → σ.Store → List (Did σ) → Except σ.Err α → σ.Store → Prop
  | ret (a : α) (s : σ.Store) : Ends fault (.ret a) s [] (.ok a) s
  | raise (e : σ.Err) (s : σ.Store) : Ends fault (.raise e) s [] (.error e) s
  | stmt {nm : σ.Name} {eff : σ.Input → σ.Store → σ.Store}
      {k : Except σ.Err (σ.Input × σ.Store) → Prog σ α} {s s' : σ.Store} {ds : List (Did σ)}
      {res : Except σ.Err α} (w : σ.Input) (h : Ends fault (k (.ok (w, s))) (eff w s) ds res s') :
      Ends fault (.stmt nm eff k) s (.stmt nm w s (eff w s) :: ds) res s'
  | failed {nm : σ.Name} {eff : σ.Input → σ.Store → σ.Store}
      {k : Except σ.Err (σ.Input × σ.Store) → Prog σ α} {s s' : σ.Store} {ds : List (Did σ)}
      {res : Except σ.Err α} {e : σ.Err} (he : fault e) (h : Ends fault (k (.error e)) s ds res s') :
      Ends fault (.stmt nm eff k) s (.failed nm e :: ds) res s'
  | ask {q : σ.Ask} {k : Except σ.Err (σ.Ans q) → Prog σ α} {s s' : σ.Store} {ds : List (Did σ)}
      {res : Except σ.Err α} (a : Except σ.Err (σ.Ans q)) (h : Ends fault (k a) s ds res s') :
      Ends fault (.ask q k) s (.asked q :: .answered q a :: ds) res s'

section Ends

variable {fault : σ.Err → Prop} {s s' : σ.Store} {ds : List (Did σ)} {nm : σ.Name}

lemma ends_ret {a : α} {res : Except σ.Err α} (h : Ends fault (.ret a) s ds res s') :
    ds = [] ∧ res = .ok a ∧ s' = s := by
  cases h; exact ⟨rfl, rfl, rfl⟩

lemma ends_raise {e : σ.Err} {res : Except σ.Err α} (h : Ends fault (.raise e) s ds res s') :
    ds = [] ∧ res = .error e ∧ s' = s := by
  cases h; exact ⟨rfl, rfl, rfl⟩

/-- The first part threw, or the rest went on from what it answered. -/
lemma ends_bind {p : Prog σ α} {f : α → Prog σ β} {res : Except σ.Err β}
    (h : Ends fault (p.bind f) s ds res s') :
    (∃ e, res = .error e ∧ Ends fault p s ds (.error e) s') ∨
    ∃ a ds₁ ds₂ s₁, ds = ds₁ ++ ds₂ ∧ Ends fault p s ds₁ (.ok a) s₁ ∧ Ends fault (f a) s₁ ds₂ res s' := by
  induction p generalizing s ds with
  | ret a => exact .inr ⟨a, [], ds, s, rfl, .ret a s, h⟩
  | raise e =>
    obtain ⟨rfl, rfl, rfl⟩ := ends_raise h
    exact .inl ⟨e, rfl, .raise e _⟩
  | stmt nm eff k ih =>
    cases h with
    | stmt w h =>
      rcases ih _ h with ⟨e, rfl, hp⟩ | ⟨a, ds₁, ds₂, s₁, rfl, hp, hf⟩
      · exact .inl ⟨e, rfl, .stmt w hp⟩
      · exact .inr ⟨a, _ :: ds₁, ds₂, s₁, rfl, .stmt w hp, hf⟩
    | failed he h =>
      rcases ih _ h with ⟨e, rfl, hp⟩ | ⟨a, ds₁, ds₂, s₁, rfl, hp, hf⟩
      · exact .inl ⟨e, rfl, .failed he hp⟩
      · exact .inr ⟨a, _ :: ds₁, ds₂, s₁, rfl, .failed he hp, hf⟩
  | ask q k ih =>
    cases h with
    | ask a h =>
      rcases ih _ h with ⟨e, rfl, hp⟩ | ⟨b, ds₁, ds₂, s₁, rfl, hp, hf⟩
      · exact .inl ⟨e, rfl, .ask a hp⟩
      · exact .inr ⟨b, _ :: _ :: ds₁, ds₂, s₁, rfl, .ask a hp, hf⟩

/-- An attempt comes to what the program came to, as a value. -/
lemma ends_attempt {p : Prog σ α} {res : Except σ.Err (Except σ.Err α)}
    (h : Ends fault p.attempt s ds res s') : ∃ r, res = .ok r ∧ Ends fault p s ds r s' := by
  induction p generalizing s ds with
  | ret a =>
    obtain ⟨rfl, rfl, rfl⟩ := ends_ret h
    exact ⟨.ok a, rfl, .ret a _⟩
  | raise e =>
    obtain ⟨rfl, rfl, rfl⟩ := ends_ret h
    exact ⟨.error e, rfl, .raise e _⟩
  | stmt nm eff k ih =>
    cases h with
    | stmt w h =>
      obtain ⟨r, rfl, hr⟩ := ih _ h
      exact ⟨r, rfl, .stmt w hr⟩
    | failed he h =>
      obtain ⟨r, rfl, hr⟩ := ih _ h
      exact ⟨r, rfl, .failed he hr⟩
  | ask q k ih =>
    cases h with
    | ask a h =>
      obtain ⟨r, rfl, hr⟩ := ih _ h
      exact ⟨r, rfl, .ask a hr⟩

/-- What is made of the answer does not matter for the rest. -/
lemma ends_map {p : Prog σ α} {res : Except σ.Err α} (g : α → β) (h : Ends fault p s ds res s') :
    Ends fault (p.bind fun a => .ret (g a)) s ds (res.map g) s' := by
  induction h with
  | ret a s => exact .ret (g a) s
  | raise e s => exact .raise e s
  | stmt w _ ih => exact .stmt w ih
  | failed he _ ih => exact .failed he ih
  | ask a _ ih => exact .ask a ih

lemma ends_ofExcept {r res : Except σ.Err α} (h : Ends fault (Prog.ofExcept r) s ds res s') :
    ds = [] ∧ res = r ∧ s' = s := by
  cases r with
  | ok a => exact ends_ret h
  | error e => exact ends_raise h

/-- Nobody outside was heard. -/
def Silent (ds : List (Did σ)) : Prop := ∀ q a, Did.answered q a ∉ ds

lemma ends_query {g : σ.Store → α} {res : Except σ.Err α} (h : Ends fault (Prog.query nm g) s ds res s') :
    s' = s ∧ Silent ds ∧ (res = .ok (g s) ∨ ∃ e, fault e ∧ res = .error e) := by
  cases h with
  | stmt w h =>
    obtain ⟨rfl, rfl, rfl⟩ := ends_ret h
    exact ⟨rfl, by simp [Silent], .inl rfl⟩
  | failed he h =>
    obtain ⟨rfl, rfl, rfl⟩ := ends_raise h
    exact ⟨rfl, by simp [Silent], .inr ⟨_, he, rfl⟩⟩

/-- A command took effect and answered, or left the store and threw: its own error, or a fault. -/
lemma ends_command {c : σ.Input → σ.Store → Except σ.Err (α × σ.Store)} {res : Except σ.Err α}
    (h : Ends fault (Prog.command nm c) s ds res s') :
    Silent ds ∧ ((∃ w a, c w s = .ok (a, s') ∧ res = .ok a) ∨
      s' = s ∧ ∃ e, res = .error e ∧ (fault e ∨ ∃ w, c w s = .error e)) := by
  cases h with
  | stmt w h =>
    dsimp only at h
    rcases hc : c w s with e | ⟨a, s₁⟩ <;> rw [hc] at h
    · obtain ⟨rfl, rfl, rfl⟩ := ends_raise h
      exact ⟨by simp [Silent], .inr ⟨rfl, e, rfl, .inr ⟨w, hc⟩⟩⟩
    · obtain ⟨rfl, rfl, rfl⟩ := ends_ret h
      exact ⟨by simp [Silent], .inl ⟨w, a, hc, rfl⟩⟩
  | failed he h =>
    obtain ⟨rfl, rfl, rfl⟩ := ends_raise h
    exact ⟨by simp [Silent], .inr ⟨rfl, _, rfl, .inl he⟩⟩

lemma ends_request {q : σ.Ask} {res : Except σ.Err (σ.Ans q)}
    (h : Ends fault (Prog.request q) s ds res s') : s' = s ∧ ds = [.asked q, .answered q res] := by
  cases h with
  | ask a h =>
    obtain ⟨rfl, rfl, rfl⟩ := ends_ofExcept h
    exact ⟨rfl, rfl⟩

/-- What its statements leave alone, a program leaves alone. -/
lemma ends_spares {γ : Type} {S : σ.Name → Prop} {A : σ.Ask → Prop} {f : σ.Store → γ} {p : Prog σ α}
    {res : Except σ.Err α} (h : Ends fault p s ds res s') (hp : p.Spares S A f) : f s' = f s := by
  induction h with
  | ret a s => rfl
  | raise e s => rfl
  | stmt w _ ih => exact (ih (hp.2.2 _)).trans (hp.2.1 w _)
  | failed _ _ ih => exact ih (hp.2.2 _)
  | ask a _ ih => exact ih (hp.2 a)

/-- Answered is what the program may ask. -/
lemma ends_asks {γ : Type} {S : σ.Name → Prop} {A : σ.Ask → Prop} {f : σ.Store → γ} {p : Prog σ α}
    {res : Except σ.Err α} (h : Ends fault p s ds res s') (hp : p.Spares S A f) {q : σ.Ask}
    {a : Except σ.Err (σ.Ans q)} (hmem : .answered q a ∈ ds) : A q := by
  induction h with
  | ret => cases hmem
  | raise => cases hmem
  | stmt w _ ih =>
    rcases List.mem_cons.mp hmem with heq | hmem
    · cases heq
    · exact ih (hp.2.2 _) hmem
  | failed _ _ ih =>
    rcases List.mem_cons.mp hmem with heq | hmem
    · cases heq
    · exact ih (hp.2.2 _) hmem
  | ask b _ ih =>
    simp only [List.mem_cons, reduceCtorEq, false_or] at hmem
    rcases hmem with heq | hmem
    · cases heq
      exact hp.1
    · exact ih (hp.2 b) hmem

/-- What each statement makes of the store, a program makes of it, if that composes. -/
lemma ends_each {R : σ.Store → σ.Store → Prop} (hrefl : ∀ a, R a a) (htrans : ∀ a b c, R a b → R b c → R a c)
    {p : Prog σ α} {res : Except σ.Err α} (h : Ends fault p s ds res s') (hp : p.Each fun _ => R) : R s s' := by
  induction h with
  | ret a s => exact hrefl s
  | raise e s => exact hrefl s
  | stmt w _ ih => exact htrans _ _ _ (hp.1 w _) (ih (hp.2 _))
  | failed _ _ ih => exact ih (hp.2 _)
  | ask a _ ih => exact ih (hp a)

end Ends

/-- The end of a program whose statements all take the input `w`, and whose questions are answered
by `o`. -/
def complete (w : σ.Input) (o : (q : σ.Ask) → Except σ.Err (σ.Ans q)) :
    Prog σ α → σ.Store → List (Did σ) × Except σ.Err α × σ.Store
  | .ret a, s => ([], .ok a, s)
  | .raise e, s => ([], .error e, s)
  | .stmt nm eff k, s =>
    let (ds, res, s') := complete w o (k (.ok (w, s))) (eff w s)
    (.stmt nm w s (eff w s) :: ds, res, s')
  | .ask q k, s =>
    let (ds, res, s') := complete w o (k (o q)) s
    (.asked q :: .answered q (o q) :: ds, res, s')

lemma ends_complete {fault : σ.Err → Prop} (w : σ.Input) (o : (q : σ.Ask) → Except σ.Err (σ.Ans q))
    (p : Prog σ α) (s : σ.Store) :
    Ends fault p s (complete w o p s).1 (complete w o p s).2.1 (complete w o p s).2.2 := by
  induction p generalizing s with
  | ret a => exact .ret a s
  | raise e => exact .raise e s
  | stmt nm eff k ih => exact .stmt w (ih _ _)
  | ask q k ih => exact .ask (o q) (ih _ _)

/-- Nobody else answers. -/
lemma complete_answered {w : σ.Input} {o : (q : σ.Ask) → Except σ.Err (σ.Ans q)} {p : Prog σ α} {s : σ.Store}
    {q : σ.Ask} {a : Except σ.Err (σ.Ans q)} (h : .answered q a ∈ (complete w o p s).1) : a = o q := by
  induction p generalizing s with
  | ret b => cases h
  | raise e => cases h
  | stmt nm eff k ih =>
    rcases List.mem_cons.mp h with heq | h
    · cases heq
    · exact ih _ h
  | ask q' k ih =>
    simp only [complete, List.mem_cons, reduceCtorEq, false_or] at h
    rcases h with heq | h
    · cases heq
      rfl
    · exact ih _ h

/-! ### Histories -/

/-- A program that was run to its end. -/
structure Done (σ : Sig) (L α : Type) where
  label : L
  before : σ.Store
  log : List (Did σ)
  result : Except σ.Err α
  after : σ.Store

/-- What was done one after another, from the store `s₀` on. -/
inductive History (fault : σ.Err → Prop) (entry : L → Prog σ α) (s₀ : σ.Store) :
    List (Done σ L α) → σ.Store → Prop
  | nil : History fault entry s₀ [] s₀
  | snoc {ds : List (Done σ L α)} {d : Done σ L α} (h : History fault entry s₀ ds d.before)
      (hd : Ends fault (entry d.label) d.before d.log d.result d.after) :
      History fault entry s₀ (ds ++ [d]) d.after

/-- Programs performed one after another, each with an input of its own. -/
def perform (entry : L → Prog σ α) (o : (q : σ.Ask) → Except σ.Err (σ.Ans q)) :
    List (Done σ L α) → σ.Store → List (L × σ.Input) → List (Done σ L α) × σ.Store
  | ds, s, [] => (ds, s)
  | ds, s, (l, w) :: rest =>
    let r := complete w o (entry l) s
    perform entry o (ds ++ [⟨l, s, r.1, r.2.1, r.2.2⟩]) r.2.2 rest

lemma history_perform {fault : σ.Err → Prop} {entry : L → Prog σ α}
    {o : (q : σ.Ask) → Except σ.Err (σ.Ans q)} {s₀ s : σ.Store} {ds : List (Done σ L α)}
    (acts : List (L × σ.Input)) (h : History fault entry s₀ ds s) :
    History fault entry s₀ (perform entry o ds s acts).1 (perform entry o ds s acts).2 := by
  induction acts generalizing ds s with
  | nil => exact h
  | cons act acts ih =>
    exact ih (.snoc (d := ⟨act.1, s, _, _, _⟩) h (ends_complete act.2 o (entry act.1) s))

lemma perform_answered {entry : L → Prog σ α} {o : (q : σ.Ask) → Except σ.Err (σ.Ans q)} {acts : List (L × σ.Input)}
    {ds : List (Done σ L α)} {s : σ.Store} {d : Done σ L α} (h : d ∈ (perform entry o ds s acts).1) :
    d ∈ ds ∨ ∀ q a, .answered q a ∈ d.log → a = o q := by
  induction acts generalizing ds s with
  | nil => exact .inl h
  | cons act acts ih =>
    rcases ih h with hmem | hall
    · rcases List.mem_append.mp hmem with hmem | hmem
      · exact .inl hmem
      · rw [List.mem_singleton.mp hmem]
        exact .inr fun q a ha => complete_answered ha
    · exact .inr hall

/-- One program after another is added to the history. -/
lemma perform_labels (entry : L → Prog σ α) (o : (q : σ.Ask) → Except σ.Err (σ.Ans q)) (acts : List (L × σ.Input))
    (ds : List (Done σ L α)) (s : σ.Store) : ∃ ds', (perform entry o ds s acts).1 = ds ++ ds' ∧
      ds'.map (·.label) = acts.map Prod.fst := by
  induction acts generalizing ds s with
  | nil => exact ⟨[], (List.append_nil _).symm, rfl⟩
  | cons act acts ih =>
    obtain ⟨ds', heq, hlabels⟩ := ih (ds ++ [⟨act.1, s, _, _, _⟩]) (complete act.2 o (entry act.1) s).2.2
    exact ⟨_ :: ds', heq.trans (List.append_assoc _ _ _), congrArg (act.1 :: ·) hlabels⟩

/-- The last thing is what is looked at, or comes after it. -/
lemma eq_of_snoc {δ : Type} {ds before after : List δ} {d x : δ} (h : ds ++ [d] = before ++ x :: after) :
    after = [] ∧ before = ds ∧ x = d ∨ ∃ after', after = after' ++ [d] ∧ ds = before ++ x :: after' := by
  rcases List.eq_nil_or_concat after with rfl | ⟨after', d', rfl⟩
  · obtain ⟨hbefore, hlast⟩ := List.append_inj' h rfl
    exact .inl ⟨rfl, hbefore.symm, (List.singleton_inj.mp hlast).symm⟩
  · rw [List.concat_eq_append] at h ⊢
    rw [← List.cons_append, ← List.append_assoc] at h
    obtain ⟨rfl, hlast⟩ := List.append_inj' h rfl
    obtain rfl : d = d' := List.singleton_inj.mp hlast
    exact .inr ⟨after', rfl, rfl⟩

/-- At some moment `P` happened, of the history before it, and from then on only `Q`. -/
def Since {δ : Type} (P : List δ → δ → Prop) (Q : δ → Prop) (ds : List δ) : Prop :=
  ∃ before d after, ds = before ++ d :: after ∧ P before d ∧ ∀ x ∈ after, Q x

section Since

variable {δ : Type} {P P' : List δ → δ → Prop} {Q Q' : δ → Prop} {ds : List δ} {d : δ}

lemma since_now (h : P ds d) : Since P Q (ds ++ [d]) := ⟨ds, d, [], rfl, h, fun _ hx => by cases hx⟩

lemma Since.snoc (h : Since P Q ds) (hd : Q d) : Since P Q (ds ++ [d]) := by
  obtain ⟨before, x, after, rfl, hx, hafter⟩ := h
  refine ⟨before, x, after ++ [d], by simp, hx, fun y hy => ?_⟩
  rcases List.mem_append.mp hy with hy | hy
  · exact hafter y hy
  · rw [List.mem_singleton.mp hy]; exact hd

end Since

end Splitcore.Interleaving
