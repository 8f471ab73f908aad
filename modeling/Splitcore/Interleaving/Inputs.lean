import Splitcore.Interleaving.Monitor

/-!
Statements and the inputs they are given: the time, above all. What every statement does with its
input, and a condition on the inputs, beside the rely-guarantee rule.
-/

namespace Splitcore.Interleaving

variable {σ : Sig} {L X V α β : Type}

namespace Prog

/-- Every statement does what `P` allows at it with the input it is given, wherever the program gets. -/
def EachIn (P : σ.Name → σ.Input → σ.Store → σ.Store → Prop) : Prog σ α → Prop
  | .ret _ => True
  | .raise _ => True
  | .stmt nm eff k => (∀ w s, P nm w s (eff w s)) ∧ ∀ r, EachIn P (k r)
  | .ask _ k => ∀ a, EachIn P (k a)

variable {P P' : σ.Name → σ.Input → σ.Store → σ.Store → Prop} {nm : σ.Name}

lemma eachIn_bind {p : Prog σ α} {k : α → Prog σ β} (hp : EachIn P p) (hk : ∀ a, EachIn P (k a)) :
    EachIn P (p.bind k) := by
  induction p with
  | ret a => exact hk a
  | raise e => trivial
  | stmt nm eff k ih => exact ⟨hp.1, fun r => ih r (hp.2 r)⟩
  | ask q k ih => exact fun a => ih a (hp a)

lemma eachIn_attempt {p : Prog σ α} (hp : EachIn P p) : EachIn P p.attempt := by
  induction p with
  | ret a => trivial
  | raise e => trivial
  | stmt nm eff k ih => exact ⟨hp.1, fun r => ih r (hp.2 r)⟩
  | ask q k ih => exact fun a => ih a (hp a)

lemma eachIn_ofExcept {r : Except σ.Err α} : EachIn P (ofExcept r : Prog σ α) := by
  cases r <;> trivial

lemma eachIn_request {q : σ.Ask} : EachIn P (request q : Prog σ (σ.Ans q)) := fun _ => eachIn_ofExcept

lemma eachIn_query {g : σ.Store → α} (hskip : ∀ w s, P nm w s s) : EachIn P (query nm g) :=
  ⟨fun w s => hskip w s, fun r => by cases r <;> trivial⟩

lemma eachIn_command {c : σ.Input → σ.Store → Except σ.Err (α × σ.Store)} (hskip : ∀ w s, P nm w s s)
    (hc : ∀ w s a s', c w s = .ok (a, s') → P nm w s s') : EachIn P (command nm c) := by
  refine ⟨fun w s => ?_, fun r => ?_⟩
  · beta_reduce
    split
    · rename_i a s' h
      exact hc w s a s' h
    · exact hskip w s
  · cases r
    · trivial
    · exact eachIn_ofExcept

/-- What it does whatever the input, it does with each. -/
lemma EachIn.and_each {Q : σ.Name → σ.Store → σ.Store → Prop} {p : Prog σ α} (h : p.EachIn P) (h' : p.Each Q) :
    p.EachIn fun nm w s s' => P nm w s s' ∧ Q nm s s' := by
  induction p with
  | ret a => trivial
  | raise e => trivial
  | stmt nm eff k ih => exact ⟨fun w s => ⟨h.1 w s, h'.1 w s⟩, fun r => ih r (h.2 r) (h'.2 r)⟩
  | ask q k ih => exact fun a => ih a (h a) (h' a)

end Prog

/-- `C` holds where statements are executed, of the inputs they are given, too. -/
def MeetsIn (C : σ.Name → σ.Input → σ.Store → Prop) (p : Pool σ L X) : Event σ L V → Prop
  | .exec i w | .lost i w _ => ∀ r nm eff k, p.live i = some r → r.prog = .stmt nm eff k →
      C nm w p.store
  | _ => True

variable {env : Outside σ L X V} {p p' : Pool σ L X} {G T : σ.Store → σ.Store → Prop}
  {C : σ.Name → σ.Store → Prop} {D : σ.Name → σ.Input → σ.Store → Prop}
  {P : σ.Name → σ.Input → σ.Store → σ.Store → Prop}

lemma MeetsIn.meets (hD : ∀ nm w s, D nm w s → C nm s) {ev : Event σ L V} (h : MeetsIn D p ev) : Meets C p ev := by
  cases ev <;> first
    | trivial
    | exact fun r nm eff k hr hp => hD nm _ _ (h r nm eff k hr hp)

/-- The event executes run `r`'s next statement, with input `w`. -/
def ExecutesIn (p p' : Pool σ L X) (ev : Event σ L V) (r : Run σ L) (nm : σ.Name) (w : σ.Input) : Prop :=
  ∃ i, (ev = .exec i w ∨ ∃ e, ev = .lost i w e) ∧ p.live i = some r ∧ Executes p p' r nm w

lemma ExecutesIn.meets {ev : Event σ L V} {r : Run σ L} {nm : σ.Name} {w : σ.Input}
    (h : ExecutesIn p p' ev r nm w) (hD : MeetsIn D p ev) : D nm w p.store := by
  obtain ⟨i, hev, hr, eff, k, hp, -⟩ := h
  rcases hev with rfl | ⟨e, rfl⟩ <;> exact hD r nm eff k hr hp

lemma ExecutesIn.does {ev : Event σ L V} {r : Run σ L} {nm : σ.Name} {w : σ.Input}
    (h : ExecutesIn p p' ev r nm w) (hprog : r.prog.EachIn P) : P nm w p.store p'.store := by
  obtain ⟨i, -, -, eff, k, hp, hstore⟩ := h
  rw [hp] at hprog
  rw [hstore]
  exact hprog.1 w p.store

/-- What an event does to the store: it executes a statement, or nothing, or the outside moves. -/
lemma step_store {ev : Event σ L V} (hs : step env p ev = some p') :
    (∃ r nm w, ExecutesIn p p' ev r nm w) ∨ p'.store = p.store ∨
      ∃ v, env.move v p.store p.out = some (p'.store, p'.out) := by
  cases ev with
  | exec i w =>
    obtain ⟨r, nm, eff, k, hr, hp, rfl⟩ := step_exec hs
    exact .inl ⟨r, nm, w, i, .inl rfl, hr, eff, k, hp, rfl⟩
  | lost i w e =>
    obtain ⟨r, nm, eff, k, hr, hp, rfl⟩ := step_lost hs
    exact .inl ⟨r, nm, w, i, .inr ⟨e, rfl⟩, hr, eff, k, hp, rfl⟩
  | start l => obtain ⟨x, -, rfl⟩ := step_start hs; exact .inr (.inl rfl)
  | fail i e => obtain ⟨r, nm, eff, k, -, -, rfl⟩ := step_fail hs; exact .inr (.inl rfl)
  | send i => obtain ⟨r, q, k, -, -, -, rfl⟩ := step_send hs; exact .inr (.inl rfl)
  | answer i o => obtain ⟨r, q, k, -, -, -, -, rfl⟩ := step_answer hs; exact .inr (.inl rfl)
  | finish i => obtain ⟨r, res, -, -, rfl⟩ := step_finish hs; exact .inr (.inl rfl)
  | crash i => obtain ⟨r, -, rfl⟩ := step_crash hs; exact .inr (.inl rfl)
  | move v =>
    obtain ⟨s, x, hm, rfl⟩ := step_move hs
    exact .inr (.inr ⟨v, hm⟩)

/-- **Rely and guarantee over whole runs, with inputs**: `steady_keeps`, where what a statement does with
its input, and where it is given it, are known besides. -/
theorem steady_keeps_in {ok : Pool σ L X → Event σ L V → Prop} {J : σ.Store → Prop}
    (hrefl : ∀ s, G s s) (htrans : ∀ s₁ s₂ s₃, G s₁ s₂ → G s₂ s₃ → G s₁ s₃)
    (hentry : ∀ l s, Obeys (relyGuarantee G T C L) (fun _ _ => True) (env.entry l) s)
    (heach : ∀ l, (env.entry l).EachIn P)
    (hmove : ∀ v s x s' x', env.move v s x = some (s', x') → G s s')
    (hok : ∀ p ev, ok p ev → MeetsIn D p ev) (hD : ∀ nm w s, D nm w s → C nm s)
    (hT : ∀ nm w s s', T s s' → P nm w s s' → D nm w s → J s → J s')
    (hJmove : ∀ v s x s' x', env.move v s x = some (s', x') → J s → J s')
    (hruns : p.runs = []) (hr : Reach env ok p p') (hJ : J p.store) : J p'.store := by
  have hstart : ∀ r ∈ p.runs, r.prog.EachIn P := by simp [hruns]
  have hall : Steady G T C p' ∧ (∀ r ∈ p'.runs, r.prog.EachIn P) ∧ J p'.store := by
    induction hr with
    | refl => exact ⟨steady_start hruns, hstart, hJ⟩
    | @step q q' ev _ hcond hs ih =>
      obtain ⟨hsteady, hprogs, hJq⟩ := ih
      have hmeets : Meets C q ev := (hok _ _ hcond).meets hD
      obtain ⟨hsteady', -⟩ := steady_step hrefl htrans hentry (fun v s x => hmove v _ _ s x) hsteady hmeets hs
      refine ⟨hsteady', inherited_step (fun _ _ _ r h => h.2 r) (fun _ _ a h => h a) hprogs
        (fun l _ => heach l) hs, ?_⟩
      rcases step_store hs with ⟨r, nm, w, hex⟩ | hsame | ⟨v, hm⟩
      · have hmem : r ∈ q.runs := by
          obtain ⟨i, -, hlive, -⟩ := hex
          exact Monitor.mem_of_live hlive
        have hguar : G q.store q'.store ∧ T q.store q'.store := by
          obtain ⟨i, hev, hlive, hexec⟩ := hex
          refine Monitor.guar_of_executes hsteady.obeys (hsteady.relies hmeets) hlive ?_ hexec
          rcases hev with rfl | ⟨e, rfl⟩ <;> rfl
        exact hT nm w _ _ hguar.2 (hex.does (hprogs r hmem)) (hex.meets (hok _ _ hcond)) hJq
      · rw [hsame]; exact hJq
      · exact hJmove v _ _ _ _ hm hJq
  exact hall.2.2

end Splitcore.Interleaving
