import Splitcore.Interleaving.Pool

/-!
Monitors: what a run may rely on, and what it has to keep to.

A monitor reads what a run does and keeps a state of its own. It says what a run in such a
state may rely on of the store when it executes a statement, what the statement must then
guarantee, and which questions it may ask. Obeying is decided on the program, by recursion
on its tree; that the runs of a pool obey is then an invariant of the pool. A monitor whose
state is the last store seen gives the rely-guarantee rule.
-/

namespace Splitcore.Interleaving

variable {σ : Sig} {L X V α β : Type}

structure Monitor (σ : Sig) (L : Type) where
  State : Type
  init : L → σ.Store → State
  next : State → Did σ → State
  rely : State → σ.Name → σ.Store → Prop
  guar : State → σ.Name → σ.Input → σ.Store → σ.Store → Prop
  query : State → σ.Ask → Prop := fun _ _ => True
  post : State → Except σ.Err Unit → Prop := fun _ _ => True

/-- Whatever happens, the program keeps to the monitor from this state on, and ends in `Q`. -/
def Obeys (M : Monitor σ L) (Q : M.State → Except σ.Err α → Prop) : Prog σ α → M.State → Prop
  | .ret a, g => Q g (.ok a)
  | .raise e, g => Q g (.error e)
  | .stmt nm eff k, g =>
      (∀ w s, M.rely g nm s → M.guar g nm w s (eff w s) ∧
        Obeys M Q (k (.ok (w, s))) (M.next g (.stmt nm w s (eff w s))) ∧
        ∀ e, Obeys M Q (k (.error e))
          (M.next (M.next g (.stmt nm w s (eff w s))) (.failed nm e))) ∧
      ∀ e, Obeys M Q (k (.error e)) (M.next g (.failed nm e))
  | .ask q k, g => M.query g q ∧
      ∀ a, Obeys M Q (k a) (M.next (M.next g (.asked q)) (.answered q a))

section Rules

variable {M : Monitor σ L} {Q R : M.State → Except σ.Err α → Prop} {g : M.State}

@[simp] lemma obeys_ret {a : α} : Obeys M Q (.ret a) g ↔ Q g (.ok a) := Iff.rfl
@[simp] lemma obeys_raise {e : σ.Err} : Obeys M Q (.raise e) g ↔ Q g (.error e) := Iff.rfl

lemma Obeys.mono {p : Prog σ α} (h : Obeys M Q p g) (hQ : ∀ g r, Q g r → R g r) :
    Obeys M R p g := by
  induction p generalizing g with
  | ret a => exact hQ _ _ h
  | raise e => exact hQ _ _ h
  | stmt nm eff k ih =>
    refine ⟨fun w s hr => ?_, fun e => ih _ (h.2 e)⟩
    obtain ⟨h1, h2, h3⟩ := h.1 w s hr
    exact ⟨h1, ih _ h2, fun e => ih _ (h3 e)⟩
  | ask q k ih => exact ⟨h.1, fun a => ih _ (h.2 a)⟩

lemma obeys_bind {Q : M.State → Except σ.Err β → Prop} {p : Prog σ α} {f : α → Prog σ β} :
    Obeys M Q (p.bind f) g ↔ Obeys M (fun g r => match r with
      | .ok a => Obeys M Q (f a) g
      | .error e => Q g (.error e)) p g := by
  induction p generalizing g with
  | ret a => exact Iff.rfl
  | raise e => exact Iff.rfl
  | stmt nm eff k ih => simp only [Prog.bind, Obeys, ih]
  | ask q k ih => simp only [Prog.bind, Obeys, ih]

lemma obeys_attempt {Q : M.State → Except σ.Err (Except σ.Err α) → Prop} {p : Prog σ α} :
    Obeys M Q p.attempt g ↔ Obeys M (fun g r => Q g (.ok r)) p g := by
  induction p generalizing g with
  | ret a => exact Iff.rfl
  | raise e => exact Iff.rfl
  | stmt nm eff k ih => simp only [Prog.attempt, Obeys, ih]
  | ask q k ih => simp only [Prog.attempt, Obeys, ih]

@[simp] lemma obeys_ofExcept {r : Except σ.Err α} :
    Obeys M Q (.ofExcept r) g ↔ Q g r := by
  cases r <;> rfl

lemma obeys_query {nm : σ.Name} {f : σ.Store → α}
    (h : ∀ w s, M.rely g nm s → M.guar g nm w s s ∧ Q (M.next g (.stmt nm w s s)) (.ok (f s)))
    (he : ∀ g e, Q g (.error e)) : Obeys M Q (.query nm f) g :=
  ⟨fun w s hr => ⟨(h w s hr).1, (h w s hr).2, fun _ => he _ _⟩, fun _ => he _ _⟩

/-- A command with all its outcomes: it succeeds, it throws, either of them unheard of, or it fails. -/
lemma obeys_outcomes {nm : σ.Name} {f : σ.Input → σ.Store → Except σ.Err (α × σ.Store)}
    (hok : ∀ w s a s', M.rely g nm s → f w s = .ok (a, s') → M.guar g nm w s s' ∧
      Q (M.next g (.stmt nm w s s')) (.ok a) ∧
      ∀ e, Q (M.next (M.next g (.stmt nm w s s')) (.failed nm e)) (.error e))
    (herr : ∀ w s e, M.rely g nm s → f w s = .error e → M.guar g nm w s s ∧
      Q (M.next g (.stmt nm w s s)) (.error e) ∧
      ∀ e', Q (M.next (M.next g (.stmt nm w s s)) (.failed nm e')) (.error e'))
    (hfail : ∀ e, Q (M.next g (.failed nm e)) (.error e)) : Obeys M Q (.command nm f) g := by
  refine ⟨fun w s hr => ?_, hfail⟩
  rcases hf : f w s with e | ⟨a, s'⟩ <;> simp only [hf]
  · obtain ⟨hg, hq, hlost⟩ := herr w s e hr hf
    exact ⟨hg, by simpa [hf, Except.map] using hq, hlost⟩
  · obtain ⟨hg, hq, hlost⟩ := hok w s a s' hr hf
    exact ⟨hg, by simpa [hf, Except.map] using hq, hlost⟩

/-- A command whose errors are not the end. -/
lemma obeys_tried {nm : σ.Name} {f : σ.Input → σ.Store → Except σ.Err (α × σ.Store)}
    (hok : ∀ w s a s', M.rely g nm s → f w s = .ok (a, s') →
      M.guar g nm w s s' ∧ Q (M.next g (.stmt nm w s s')) (.ok a))
    (herr : ∀ w s e, M.rely g nm s → f w s = .error e →
      M.guar g nm w s s ∧ Q (M.next g (.stmt nm w s s)) (.error e))
    (hlost : ∀ w s s' e, Q (M.next (M.next g (.stmt nm w s s')) (.failed nm e)) (.error e))
    (hfail : ∀ e, Q (M.next g (.failed nm e)) (.error e)) : Obeys M Q (.command nm f) g :=
  obeys_outcomes (fun w s a s' hr hf => ⟨(hok w s a s' hr hf).1, (hok w s a s' hr hf).2, hlost w s s'⟩)
    (fun w s e hr hf => ⟨(herr w s e hr hf).1, (herr w s e hr hf).2, hlost w s s⟩) hfail

lemma obeys_command {nm : σ.Name} {f : σ.Input → σ.Store → Except σ.Err (α × σ.Store)}
    (hok : ∀ w s a s', M.rely g nm s → f w s = .ok (a, s') →
      M.guar g nm w s s' ∧ Q (M.next g (.stmt nm w s s')) (.ok a))
    (herr : ∀ w s e, M.rely g nm s → f w s = .error e → M.guar g nm w s s)
    (he : ∀ g e, Q g (.error e)) : Obeys M Q (.command nm f) g :=
  obeys_tried hok (fun w s e hr hf => ⟨herr w s e hr hf, he _ _⟩) (fun _ _ _ _ => he _ _)
    fun _ => he _ _

lemma obeys_request {q : σ.Ask} {Q : M.State → Except σ.Err (σ.Ans q) → Prop}
    (hq : M.query g q)
    (h : ∀ a, Q (M.next (M.next g (.asked q)) (.answered q a)) a) :
    Obeys M Q (.request q) g :=
  ⟨hq, fun a => obeys_ofExcept.mpr (h a)⟩

/-- A program that does nothing the monitor has to look at, as long as `I` holds. -/
lemma obeys_of_spares {γ : Type} {S : σ.Name → Prop} {A : σ.Ask → Prop} {f : σ.Store → γ}
    {I : M.State → Prop} {p : Prog σ α} (hp : p.Spares S A f)
    (hstmt : ∀ g nm w s s', I g → S nm → f s' = f s →
      M.guar g nm w s s' ∧ I (M.next g (.stmt nm w s s')))
    (hfailed : ∀ g nm e, I g → S nm → I (M.next g (.failed nm e)))
    (hask : ∀ g q, I g → A q → M.query g q ∧ I (M.next g (.asked q)))
    (hanswer : ∀ g q a, I g → A q → I (M.next g (.answered q a))) (hg : I g) :
    Obeys M (fun g' _ => I g') p g := by
  induction p generalizing g with
  | ret a => exact hg
  | raise e => exact hg
  | stmt nm eff k ih =>
    obtain ⟨hS, heff, hk⟩ := hp
    refine ⟨fun w s _ => ?_, fun e => ih _ (hk _) (hfailed g nm e hg hS)⟩
    obtain ⟨hguar, hnext⟩ := hstmt g nm w s (eff w s) hg hS (heff w s)
    exact ⟨hguar, ih _ (hk _) hnext, fun e => ih _ (hk _) (hfailed _ nm e hnext hS)⟩
  | ask q k ih =>
    obtain ⟨hquery, hnext⟩ := hask g q hg hp.1
    exact ⟨hquery, fun a => ih a (hp.2 a) (hanswer _ q a hnext hp.1)⟩

/-- A program of which it is enough what each statement does, as long as `I` holds. -/
lemma obeys_of_each {P : σ.Name → σ.Store → σ.Store → Prop} {I : M.State → Prop} {p : Prog σ α} (hp : p.Each P)
    (hstmt : ∀ g nm w s s', I g → M.rely g nm s → P nm s s' → M.guar g nm w s s') (hask : ∀ g q, M.query g q)
    (hnext : ∀ g d, I g → I (M.next g d)) (hg : I g) : Obeys M (fun _ _ => True) p g := by
  induction p generalizing g with
  | ret a => trivial
  | raise e => trivial
  | stmt nm eff k ih =>
    exact ⟨fun w s hr => ⟨hstmt g nm w s _ hg hr (hp.1 w s), ih _ (hp.2 _) (hnext _ _ hg),
      fun e => ih _ (hp.2 _) (hnext _ _ (hnext _ _ hg))⟩, fun e => ih _ (hp.2 _) (hnext _ _ hg)⟩
  | ask q k ih => exact ⟨hask g q, fun a => ih a (hp a) (hnext _ _ (hnext _ _ hg))⟩

/-- One after the other, where it does not matter how the first ended. -/
lemma obeys_then {p : Prog σ α} {k : α → Prog σ β} (h : Obeys M (fun _ _ => True) p g)
    (hk : ∀ a g, Obeys M (fun _ _ => True) (k a) g) : Obeys M (fun _ _ => True) (p.bind k) g := by
  refine obeys_bind.mpr (h.mono fun g result _ => ?_)
  rcases result with e | a
  · trivial
  · exact hk a g

end Rules

/-! ### Monitored pools -/

namespace Monitor

variable (M : Monitor σ L)

/-- The monitor's state after what the run did. -/
def at_ (r : Run σ L) : M.State := r.log.foldl M.next (M.init r.label r.born)

/-- The rest of the run obeys. While its question is under way, it might be asked, and what
follows any answer obeys. -/
def Watches (r : Run σ L) : Prop :=
  if r.asked then ∃ q k g, r.prog = .ask q k ∧ M.query g q ∧ M.at_ r = M.next g (.asked q) ∧
    ∀ a, Obeys M M.post (k a) (M.next (M.at_ r) (.answered q a))
  else Obeys M M.post r.prog (M.at_ r)

/-- Every run obeys, also those that ended. -/
def WatchesAll (p : Pool σ L X) : Prop := ∀ r ∈ p.runs, M.Watches r

/-- The store is as the executing run relies on. -/
def Relies (p : Pool σ L X) : Event σ L V → Prop
  | .exec i _ | .lost i _ _ => ∀ r nm eff k, p.live i = some r → r.prog = .stmt nm eff k →
      M.rely (M.at_ r) nm p.store
  | _ => True

variable {M} {env : Outside σ L X V} {p p' : Pool σ L X} {i j : ℕ} {r : Run σ L}

@[simp] lemma at_new (l : L) (s : σ.Store) (q : Prog σ Unit) :
    M.at_ (Run.new l s q) = M.init l s := rfl

@[simp] lemma at_goes (q : Prog σ Unit) (ds : List (Did σ)) :
    M.at_ (r.goes q ds) = ds.foldl M.next (M.at_ r) := by
  simp [at_, Run.goes, List.foldl_append]

@[simp] lemma at_sent (q : σ.Ask) : M.at_ (r.sent q) = M.next (M.at_ r) (.asked q) := by
  simp [at_, Run.sent, List.foldl_append]

/-- What the monitor knows is what the log says. -/
lemma at_log {P : M.State → List (Did σ) → Prop} (r : Run σ L)
    (hinit : P (M.init r.label r.born) [])
    (hnext : ∀ g ds d, P g ds → P (M.next g d) (ds ++ [d])) : P (M.at_ r) r.log := by
  suffices h : ∀ ds done g, P g done → P (ds.foldl M.next g) (done ++ ds) from
    h r.log [] _ hinit
  intro ds
  induction ds with
  | nil => intro done g hg; simpa using hg
  | cons d ds ih =>
    intro done g hg
    have hds := ih (done ++ [d]) (M.next g d) (hnext g done d hg)
    rwa [List.append_assoc] at hds

lemma at_continues {r r' : Run σ L} {ds : List (Did σ)} (h : Continues r r' ds) :
    M.at_ r' = ds.foldl M.next (M.at_ r) := by
  rw [Monitor.at_, h.label, h.born, h.log, List.foldl_append, Monitor.at_]

lemma watches_goes {q : Prog σ Unit} {ds : List (Did σ)} :
    M.Watches (r.goes q ds) ↔ Obeys M M.post q (ds.foldl M.next (M.at_ r)) := by
  simp [Watches, Run.goes, at_, List.foldl_append]

lemma Watches.of_stmt (h : M.Watches r) {nm : σ.Name} {eff : σ.Input → σ.Store → σ.Store}
    {k : Except σ.Err (σ.Input × σ.Store) → Prog σ Unit} (hp : r.prog = .stmt nm eff k) :
    Obeys M M.post (.stmt nm eff k) (M.at_ r) := by
  unfold Watches at h
  split at h
  · obtain ⟨q, k', g, hq, -⟩ := h; rw [hp] at hq; cases hq
  · rwa [hp] at h

lemma Watches.of_ask (h : M.Watches r) {q : σ.Ask} {k : Except σ.Err (σ.Ans q) → Prog σ Unit}
    (hp : r.prog = .ask q k) (ha : r.asked = false) : Obeys M M.post (.ask q k) (M.at_ r) := by
  simpa [Watches, ha, hp] using h

lemma Watches.of_asked (h : M.Watches r) {q : σ.Ask} {k : Except σ.Err (σ.Ans q) → Prog σ Unit}
    (hp : r.prog = .ask q k) (ha : r.asked = true) (a : Except σ.Err (σ.Ans q)) :
    Obeys M M.post (k a) (M.next (M.at_ r) (.answered q a)) := by
  simp only [Watches, ha, if_true, hp] at h
  obtain ⟨q', k', g, hq, -, -, h⟩ := h
  obtain ⟨rfl, hk⟩ := Prog.ask.inj hq
  cases hk
  exact h a

/-- A question, also while it is under way, was asked as the monitor allows. -/
lemma Watches.asks (h : M.Watches r) {q : σ.Ask} {k : Except σ.Err (σ.Ans q) → Prog σ Unit}
    (hp : r.prog = .ask q k) :
    ∃ g, M.query g q ∧ (M.at_ r = g ∨ M.at_ r = M.next g (.asked q)) := by
  cases ha : r.asked with
  | false => exact ⟨M.at_ r, (h.of_ask hp ha).1, .inl rfl⟩
  | true =>
    simp only [Watches, ha, if_true, hp] at h
    obtain ⟨q', k', g, hq, hquery, hat, -⟩ := h
    obtain ⟨rfl, -⟩ := Prog.ask.inj hq
    exact ⟨g, hquery, .inr hat⟩

/-- A run that has come to its end meets the postcondition. -/
lemma Watches.of_ret (h : M.Watches r) (hp : r.prog = .ret ()) : M.post (M.at_ r) (.ok ()) := by
  unfold Watches at h
  split at h
  · obtain ⟨q, k, g, hq, -⟩ := h; rw [hp] at hq; cases hq
  · rwa [hp] at h

lemma mem_of_live (h : p.live i = some r) : r ∈ p.runs :=
  List.mem_of_getElem? (live_eq_some.mp h).1

lemma watchesAll_put (h : M.WatchesAll p) {r' : Run σ L} (hr : M.Watches r') :
    M.WatchesAll (p.put i r') := by
  intro q hq
  rcases List.mem_or_eq_of_mem_set hq with hq | rfl
  · exact h q hq
  · exact hr

lemma Watches.gone (h : M.Watches r) : M.Watches r.gone := h

/-- **Obeying is kept by every event**, if every program obeys from where it is started and
the store is as the executing run relies on. -/
theorem watchesAll_step {ev : Event σ L V} (h : M.WatchesAll p)
    (hentry : ∀ l x, env.start l p.store p.out = some x →
      Obeys M M.post (env.entry l) (M.init l p.store))
    (hrely : M.Relies p ev) (hs : step env p ev = some p') : M.WatchesAll p' := by
  cases ev with
  | start l =>
    obtain ⟨x, hx, rfl⟩ := step_start hs
    intro q hq
    rcases List.mem_append.mp hq with hq | hq
    · exact h q hq
    · rw [List.mem_singleton.mp hq]
      simpa [Watches, Run.new, at_] using hentry l x hx
  | exec i w =>
    obtain ⟨r, nm, eff, k, hr, hp, rfl⟩ := step_exec hs
    refine watchesAll_put h (watches_goes.mpr ?_)
    exact (((h r (mem_of_live hr)).of_stmt hp).1 w p.store (hrely r nm eff k hr hp)).2.1
  | lost i w e =>
    obtain ⟨r, nm, eff, k, hr, hp, rfl⟩ := step_lost hs
    refine watchesAll_put h (watches_goes.mpr ?_)
    exact (((h r (mem_of_live hr)).of_stmt hp).1 w p.store (hrely r nm eff k hr hp)).2.2 e
  | fail i e =>
    obtain ⟨r, nm, eff, k, hr, hp, rfl⟩ := step_fail hs
    exact watchesAll_put h (watches_goes.mpr (((h r (mem_of_live hr)).of_stmt hp).2 e))
  | send i =>
    obtain ⟨r, q, k, hr, hp, ha, rfl⟩ := step_send hs
    refine watchesAll_put h ?_
    obtain ⟨hquery, hw⟩ := (h r (mem_of_live hr)).of_ask hp ha
    simp only [Watches, Run.sent, if_true]
    refine ⟨q, k, M.at_ r, hp, hquery, at_sent q, fun a => ?_⟩
    have := hw a
    rwa [← at_sent] at this
  | answer i o =>
    obtain ⟨r, q, k, hr, hp, ha, -, rfl⟩ := step_answer hs
    exact watchesAll_put h (watches_goes.mpr ((h r (mem_of_live hr)).of_asked hp ha (o q)))
  | finish i =>
    obtain ⟨r, res, hr, -, rfl⟩ := step_finish hs
    exact watchesAll_put h (h r (mem_of_live hr)).gone
  | crash i =>
    obtain ⟨r, hr, rfl⟩ := step_crash hs
    exact watchesAll_put h (h r (mem_of_live hr)).gone
  | move v =>
    obtain ⟨s, x, -, rfl⟩ := step_move hs
    exact h

/-- Runs that were only started. -/
lemma watchesAll_new (h : ∀ r ∈ p.runs, ∃ l q, r = .new l p.store q ∧
    Obeys M M.post q (M.init l p.store)) : M.WatchesAll p := by
  intro r hr
  obtain ⟨l, q, rfl, hq⟩ := h r hr
  simpa [Watches, Run.new, at_] using hq

/-- The guarantee of the statement a watched run executes. -/
lemma WatchesAll.guar (h : M.WatchesAll p) (hr : p.live i = some r) {nm : σ.Name}
    {eff : σ.Input → σ.Store → σ.Store} {k : Except σ.Err (σ.Input × σ.Store) → Prog σ Unit}
    (hp : r.prog = .stmt nm eff k) (hrely : M.rely (M.at_ r) nm p.store) (w : σ.Input) :
    M.guar (M.at_ r) nm w p.store (eff w p.store) :=
  (((h r (mem_of_live hr)).of_stmt hp).1 w p.store hrely).1

lemma WatchesAll.guar_of (h : M.WatchesAll p) (hr : p.live i = some r) {nm : σ.Name} {w : σ.Input}
    (hex : Executes p p' r nm w) (hrely : M.rely (M.at_ r) nm p.store) :
    M.guar (M.at_ r) nm w p.store p'.store := by
  obtain ⟨eff, k, hp, hstore⟩ := hex
  rw [hstore]
  exact h.guar hr hp hrely w

lemma WatchesAll.query (h : M.WatchesAll p) (hr : p.live i = some r) {q : σ.Ask}
    {k : Except σ.Err (σ.Ans q) → Prog σ Unit} (hp : r.prog = .ask q k)
    (ha : r.asked = false) : M.query (M.at_ r) q :=
  ((h r (mem_of_live hr)).of_ask hp ha).1

/-- Run `i` executed a statement: it had its guarantee, and the run's log says so. -/
structure Executed (M : Monitor σ L) (p p' : Pool σ L X) (i : ℕ) (r : Run σ L) (nm : σ.Name)
    (w : σ.Input) : Prop where
  live : p.live i = some r
  prog : ∃ eff k, r.prog = .stmt nm eff k
  guar : M.guar (M.at_ r) nm w p.store p'.store
  logged : ∃ r' ∈ p'.runs, r'.label = r.label ∧
    r.log ++ [.stmt nm w p.store p'.store] <+: r'.log

lemma mem_put {r' : Run σ L} (hr : p.live i = some r) : r' ∈ (p.put i r').runs :=
  List.mem_set (List.getElem?_eq_some_iff.mp (live_eq_some.mp hr).1).1 r'

/-- **What an event does to the store**: it executes a statement that has its guarantee, or leaves
the store alone, or the outside moves. -/
theorem WatchesAll.step_store {ev : Event σ L V} (h : M.WatchesAll p) (hrely : M.Relies p ev)
    (hs : step env p ev = some p') :
    (∃ i r nm w, executes ev = some i ∧ Executed M p p' i r nm w) ∨
    executes ev = none ∧ p'.store = p.store ∨
    ∃ v, ev = .move v ∧ env.move v p.store p.out = some (p'.store, p'.out) := by
  cases ev with
  | exec i w =>
    obtain ⟨r, nm, eff, k, hr, hp, rfl⟩ := step_exec hs
    refine .inl ⟨i, r, nm, w, rfl, hr, ⟨eff, k, hp⟩, h.guar hr hp (hrely r nm eff k hr hp) w, ?_⟩
    exact ⟨_, mem_put hr, rfl, List.prefix_rfl⟩
  | lost i w e =>
    obtain ⟨r, nm, eff, k, hr, hp, rfl⟩ := step_lost hs
    refine .inl ⟨i, r, nm, w, rfl, hr, ⟨eff, k, hp⟩, h.guar hr hp (hrely r nm eff k hr hp) w, ?_⟩
    exact ⟨_, mem_put hr, rfl, List.prefix_append_right_inj _ |>.mpr (by simp)⟩
  | start l => obtain ⟨x, -, rfl⟩ := step_start hs; exact .inr (.inl ⟨rfl, rfl⟩)
  | fail i e => obtain ⟨r, nm, eff, k, -, -, rfl⟩ := step_fail hs; exact .inr (.inl ⟨rfl, rfl⟩)
  | send i => obtain ⟨r, q, k, -, -, -, rfl⟩ := step_send hs; exact .inr (.inl ⟨rfl, rfl⟩)
  | answer i o => obtain ⟨r, q, k, -, -, -, -, rfl⟩ := step_answer hs; exact .inr (.inl ⟨rfl, rfl⟩)
  | finish i => obtain ⟨r, res, -, -, rfl⟩ := step_finish hs; exact .inr (.inl ⟨rfl, rfl⟩)
  | crash i => obtain ⟨r, -, rfl⟩ := step_crash hs; exact .inr (.inl ⟨rfl, rfl⟩)
  | move v =>
    obtain ⟨s, x, hm, rfl⟩ := step_move hs
    exact .inr (.inr ⟨v, rfl, hm⟩)

/-! ### What runs did was guaranteed -/

/-- Every statement in the log had its guarantee when it was executed. -/
def Kept (M : Monitor σ L) (r : Run σ L) : Prop :=
  ∀ ds nm w s s', ds ++ [.stmt nm w s s'] <+: r.log →
    M.guar (ds.foldl M.next (M.init r.label r.born)) nm w s s'

lemma guar_of_executes {ev : Event σ L V} {nm : σ.Name} {w : σ.Input} (h : M.WatchesAll p)
    (hrely : M.Relies p ev) (hr : p.live i = some r) (hev : executes ev = some i)
    (hex : Executes p p' r nm w) : M.guar (M.at_ r) nm w p.store p'.store := by
  refine h.guar_of hr hex ?_
  obtain ⟨eff, k, hp, -⟩ := hex
  cases ev with
  | exec j v => cases hev; exact hrely r nm eff k hr hp
  | lost j v e => cases hev; exact hrely r nm eff k hr hp
  | _ => cases hev

theorem kept_step {ev : Event σ L V} (h : M.WatchesAll p) (hrely : M.Relies p ev)
    (hkept : ∀ r ∈ p.runs, M.Kept r) (hs : step env p ev = some p') : ∀ r ∈ p'.runs, M.Kept r := by
  intro r' hr'
  obtain ⟨j, hj⟩ := List.getElem?_of_mem hr'
  rcases step_run hs hj with ⟨hold, -⟩ | ⟨l, -, -, rfl⟩ | ⟨r, ds, hlive, hgoes, hadds⟩
  · exact hkept r' (List.mem_of_getElem? hold)
  · intro ds nm w s s' hpre
    simp [Run.new] at hpre
  intro before nm w s s' hpre
  rw [hgoes.log] at hpre
  rw [hgoes.label, hgoes.born]
  -- a statement of before, or the one executed now
  have hold : before ++ [.stmt nm w s s'] <+: r.log →
      M.guar (before.foldl M.next (M.init r.label r.born)) nm w s s' :=
    hkept r (mem_of_live hlive) before nm w s s'
  have hlast : ∀ {nm' : σ.Name} {w' : σ.Input}, executes ev = some j → Executes p p' r nm' w' →
      before ++ [.stmt nm w s s'] = r.log ++ [.stmt nm' w' p.store p'.store] →
      M.guar (before.foldl M.next (M.init r.label r.born)) nm w s s' := by
    intro nm' w' hev hex heq
    obtain ⟨rfl, hd⟩ := List.append_inj' heq rfl
    simp only [List.cons.injEq, Did.stmt.injEq, and_true] at hd
    obtain ⟨rfl, rfl, rfl, rfl⟩ := hd
    exact guar_of_executes h hrely hlive hev hex
  have hother : ∀ {d : Did σ} {l : List (Did σ)}, (∀ nm w s s', d ≠ .stmt nm w s s') →
      before ++ [.stmt nm w s s'] <+: l ++ [d] → before ++ [.stmt nm w s s'] <+: l := by
    intro d l hd hpre
    rcases List.prefix_concat_iff.mp hpre with heq | hpre
    · obtain ⟨-, heq⟩ := List.append_inj' heq rfl
      exact absurd (List.cons.inj heq).1.symm (hd nm w s s')
    · exact hpre
  cases hadds with
  | stmt nm' w' hev hex =>
    rcases List.prefix_concat_iff.mp hpre with heq | hpre
    · exact hlast hev hex heq
    · exact hold hpre
  | lost nm' w' e hev hex =>
    rw [show r.log ++ [Did.stmt nm' w' p.store p'.store, .failed nm' e] =
      r.log ++ [.stmt nm' w' p.store p'.store] ++ [.failed nm' e] by simp] at hpre
    rcases List.prefix_concat_iff.mp (hother (by simp) hpre) with heq | hpre
    · exact hlast hev hex heq
    · exact hold hpre
  | failed hstore nm' e => exact hold (hother (by simp) hpre)
  | asked hstore q k hp ha => exact hold (hother (by simp) hpre)
  | answered hstore q k hp a => exact hold (hother (by simp) hpre)
  | nothing hstore => exact hold (by simpa using hpre)

end Monitor

/-! ### Rely and guarantee -/

section RelyGuarantee

variable (G T : σ.Store → σ.Store → Prop) (C : σ.Name → σ.Store → Prop)

/-- Whatever the others do is in `G`; every statement is in `G` and, more precisely, in `T`,
provided `C` holds where it is executed. The state is the last store the run saw. -/
def relyGuarantee (L : Type) : Monitor σ L where
  State := σ.Store
  init _ s := s
  next g d := match d with
    | .stmt _ _ _ s' => s'
    | _ => g
  rely g nm s := G g s ∧ C nm s
  guar _ _ _ s s' := G s s' ∧ T s s'

variable {G T C}

/-- `C` holds where statements are executed. -/
def Meets (C : σ.Name → σ.Store → Prop) (p : Pool σ L X) : Event σ L V → Prop
  | .exec i _ | .lost i _ _ => ∀ r nm eff k, p.live i = some r → r.prog = .stmt nm eff k →
      C nm p.store
  | _ => True

/-- Whatever a run did, it did between the first store and the current one. -/
def Between (G : σ.Store → σ.Store → Prop) (s₀ : σ.Store) (p : Pool σ L X) : Prop :=
  ∀ r ∈ p.runs, ∀ nm w s s', .stmt nm w s s' ∈ r.log → G s₀ s ∧ G s s' ∧ G s' p.store

/-- What is in `T` is in anything wider. -/
lemma obeys_wider {T' : σ.Store → σ.Store → Prop} {Q : σ.Store → Except σ.Err α → Prop}
    {p : Prog σ α} {g : σ.Store} (hT : ∀ s s', T s s' → T' s s')
    (h : Obeys (relyGuarantee G T C L) Q p g) : Obeys (relyGuarantee G T' C L) Q p g := by
  induction p generalizing g with
  | ret a => exact h
  | raise e => exact h
  | stmt nm eff k ih =>
    refine ⟨fun w s hr => ?_, fun e => ih _ (h.2 e)⟩
    obtain ⟨hguar, hok, hlost⟩ := h.1 w s hr
    exact ⟨⟨hguar.1, hT _ _ hguar.2⟩, ih _ hok, fun e => ih _ (hlost e)⟩
  | ask q k ih => exact ⟨h.1, fun a => ih a (h.2 a)⟩

/-- What every statement does may be guaranteed, too, and where it does it. -/
lemma obeys_each {P : σ.Name → σ.Store → σ.Store → Prop} {Q : σ.Store → Except σ.Err α → Prop}
    {p : Prog σ α} {g : σ.Store} (hp : p.Each P) (h : Obeys (relyGuarantee G T C L) Q p g) :
    Obeys (relyGuarantee G (fun s s' => T s s' ∧ ∃ nm, C nm s ∧ P nm s s') C L) Q p g := by
  induction p generalizing g with
  | ret a => exact h
  | raise e => exact h
  | stmt nm eff k ih =>
    refine ⟨fun w s hr => ?_, fun e => ih _ (hp.2 _) (h.2 e)⟩
    obtain ⟨hguar, hok, hlost⟩ := h.1 w s hr
    exact ⟨⟨hguar.1, hguar.2, nm, hr.2, hp.1 w s⟩, ih _ (hp.2 _) hok, fun e => ih _ (hp.2 _) (hlost e)⟩
  | ask q k ih => exact ⟨h.1, fun a => ih a (hp a) (h.2 a)⟩

/-- The invariant of a pool under the rely-guarantee rule. -/
structure Steady (G T : σ.Store → σ.Store → Prop) (C : σ.Name → σ.Store → Prop)
    (p : Pool σ L X) : Prop where
  obeys : (relyGuarantee G T C L).WatchesAll p
  seen : ∀ i r, p.live i = some r → G ((relyGuarantee G T C L).at_ r) p.store

variable {env : Outside σ L X V} {p p' : Pool σ L X} {i : ℕ} {r r' : Run σ L}

lemma steady_start (h : p.runs = []) : Steady G T C p :=
  ⟨fun r hr => by simp [h] at hr, fun i r hr => by simp [live_eq_some, h] at hr⟩

/-- What runs rely on is there where `C` holds. -/
lemma Steady.relies (h : Steady G T C p) {ev : Event σ L V} (hC : Meets C p ev) :
    (relyGuarantee G T C L).Relies p ev := by
  cases ev <;> first
    | trivial
    | exact fun r nm eff k hr hp => ⟨h.seen _ r hr, hC r nm eff k hr hp⟩

variable (hrefl : ∀ s, G s s) (htrans : ∀ s₁ s₂ s₃, G s₁ s₂ → G s₂ s₃ → G s₁ s₃)

include htrans in
/-- A run goes on, with the store it has seen up to date. -/
lemma Steady.seen_put (h : Steady G T C p) {s : σ.Store} {x : X} (hi : p.live i = some r)
    (hr' : r'.alive = true → G ((relyGuarantee G T C L).at_ r') s) (hG : G p.store s) (j : ℕ)
    (rj : Run σ L) (hj : ({ p.put i r' with store := s, out := x } : Pool σ L X).live j = some rj) :
    G ((relyGuarantee G T C L).at_ rj) s := by
  have hj' : (p.put i r').live j = some rj := hj
  rw [live_put hi] at hj'
  split at hj'
  · simp only [Option.filter_eq_some_iff, Option.some.injEq] at hj'
    obtain ⟨rfl, ha⟩ := hj'
    exact hr' ha
  · exact htrans _ _ _ (h.seen j rj hj') hG

/-- What an event does to the store: nothing, a statement, or a move of the outside. -/
def Does (env : Outside σ L X V) (G T : σ.Store → σ.Store → Prop) (p p' : Pool σ L X) : Prop :=
  p'.store = p.store ∨ G p.store p'.store ∧ T p.store p'.store ∨
    ∃ v, env.move v p.store p.out = some (p'.store, p'.out)

include hrefl in
lemma steady_new (h : ∀ r ∈ p.runs, ∃ l q, r = .new l p.store q ∧
    Obeys (relyGuarantee G T C L) (fun _ _ => True) q p.store) : Steady G T C p := by
  refine ⟨Monitor.watchesAll_new h, fun i r hr => ?_⟩
  obtain ⟨l, q, rfl, -⟩ := h r (Monitor.mem_of_live hr)
  exact hrefl _

variable (hentry : ∀ l s, Obeys (relyGuarantee G T C L) (fun _ _ => True) (env.entry l) s)
include hrefl htrans hentry

/-- **One event under the rely-guarantee rule.** -/
theorem steady_step (hmove : ∀ v s x, env.move v p.store p.out = some (s, x) → G p.store s)
    {ev : Event σ L V} (h : Steady G T C p) (hC : Meets C p ev) (hs : step env p ev = some p') :
    Steady G T C p' ∧ Does env G T p p' := by
  have hrely := h.relies hC
  have hobeys : (relyGuarantee G T C L).WatchesAll p' :=
    Monitor.watchesAll_step h.obeys (fun l _ _ => hentry l p.store) hrely hs
  cases ev with
  | start l =>
    obtain ⟨x, -, rfl⟩ := step_start hs
    refine ⟨⟨hobeys, fun j rj hj => ?_⟩, .inl rfl⟩
    rw [live_eq_some] at hj
    obtain ⟨hj, ha⟩ := hj
    rcases Nat.lt_or_ge j p.runs.length with hlt | hge
    · rw [List.getElem?_append_left hlt] at hj
      exact h.seen j rj (live_eq_some.mpr ⟨hj, ha⟩)
    · rw [List.getElem?_append_right hge, List.getElem?_singleton] at hj
      split at hj
      · cases hj; exact hrefl _
      · cases hj
  | exec i w =>
    obtain ⟨r, nm, eff, k, hr, hp, rfl⟩ := step_exec hs
    have hguar := h.obeys.guar hr hp (hrely r nm eff k hr hp) w
    refine ⟨⟨hobeys, h.seen_put htrans hr (fun _ => ?_) hguar.1⟩, .inr (.inl hguar)⟩
    rw [Monitor.at_goes]; exact hrefl _
  | lost i w e =>
    obtain ⟨r, nm, eff, k, hr, hp, rfl⟩ := step_lost hs
    have hguar := h.obeys.guar hr hp (hrely r nm eff k hr hp) w
    refine ⟨⟨hobeys, h.seen_put htrans hr (fun _ => ?_) hguar.1⟩, .inr (.inl hguar)⟩
    rw [Monitor.at_goes]; exact hrefl _
  | fail i e =>
    obtain ⟨r, nm, eff, k, hr, hp, rfl⟩ := step_fail hs
    refine ⟨⟨hobeys, h.seen_put htrans hr (fun _ => ?_) (hrefl _)⟩, .inl rfl⟩
    rw [Monitor.at_goes]; exact h.seen i r hr
  | send i =>
    obtain ⟨r, q, k, hr, hp, -, rfl⟩ := step_send hs
    refine ⟨⟨hobeys, h.seen_put htrans hr (fun _ => ?_) (hrefl _)⟩, .inl rfl⟩
    rw [Monitor.at_sent]; exact h.seen i r hr
  | answer i o =>
    obtain ⟨r, q, k, hr, hp, -, -, rfl⟩ := step_answer hs
    refine ⟨⟨hobeys, h.seen_put htrans hr (fun _ => ?_) (hrefl _)⟩, .inl rfl⟩
    rw [Monitor.at_goes]; exact h.seen i r hr
  | finish i =>
    obtain ⟨r, res, hr, -, rfl⟩ := step_finish hs
    exact ⟨⟨hobeys, h.seen_put htrans hr (fun ha => by simp [Run.gone] at ha) (hrefl _)⟩,
      .inl rfl⟩
  | crash i =>
    obtain ⟨r, hr, rfl⟩ := step_crash hs
    exact ⟨⟨hobeys, h.seen_put htrans hr (fun ha => by simp [Run.gone] at ha) (hrefl _)⟩,
      .inl rfl⟩
  | move v =>
    obtain ⟨s, x, hm, rfl⟩ := step_move hs
    exact ⟨⟨hobeys, fun i r hr => htrans _ _ _ (h.seen i r hr) (hmove v _ _ hm)⟩,
      .inr (.inr ⟨v, hm⟩)⟩

omit hentry in
/-- A run of what it did lies between the first store and the current one. -/
theorem between_step {s₀ : σ.Store} {ev : Event σ L V} (h₀ : G s₀ p.store) (hG : G p.store p'.store)
    (h : Between G s₀ p) (hs : step env p ev = some p') : Between G s₀ p' := by
  intro r' hr' nm w s s' hd
  obtain ⟨j, hj⟩ := List.getElem?_of_mem hr'
  have hold : ∀ r ∈ p.runs, .stmt nm w s s' ∈ r.log → G s₀ s ∧ G s s' ∧ G s' p'.store := by
    intro r hr hd
    obtain ⟨hs₀, hstmt, hs'⟩ := h r hr nm w s s' hd
    exact ⟨hs₀, hstmt, htrans _ _ _ hs' hG⟩
  rcases step_run hs hj with ⟨hsame, -⟩ | ⟨l, -, -, rfl⟩ | ⟨r, ds, hlive, hgoes, hadds⟩
  · exact hold r' (List.mem_of_getElem? hsame) hd
  · cases hd
  rw [hgoes.log, List.mem_append] at hd
  rcases hd with hd | hd
  · exact hold r (Monitor.mem_of_live hlive) hd
  · obtain ⟨rfl, rfl⟩ := hadds.stmt_mem hd
    exact ⟨h₀, hG, hrefl _⟩

/-- **Rely and guarantee over whole runs**: what every statement in `T` and every move of the
outside keep, holds wherever a run gets. -/
theorem steady_keeps {ok : Pool σ L X → Event σ L V → Prop} {J : σ.Store → Prop}
    (hmove : ∀ v s x s' x', env.move v s x = some (s', x') → G s s')
    (hok : ∀ p ev, ok p ev → Meets C p ev) (hT : ∀ s s', G s s' → T s s' → J s → J s')
    (hJmove : ∀ v s x s' x', env.move v s x = some (s', x') → J s → J s')
    (h : Steady G T C p) (hr : Reach env ok p p') (hJ : J p.store) :
    Steady G T C p' ∧ J p'.store := by
  induction hr with
  | refl => exact ⟨h, hJ⟩
  | step ev _ hcond hs ih =>
    obtain ⟨h', hdoes⟩ := steady_step hrefl htrans hentry
      (fun v s x => hmove v _ _ s x) ih.1 (hok _ _ hcond) hs
    refine ⟨h', ?_⟩
    rcases hdoes with heq | ⟨hG, ht⟩ | ⟨v, hm⟩
    · rw [heq]; exact ih.2
    · exact hT _ _ hG ht ih.2
    · exact hJmove v _ _ _ _ hm ih.2

end RelyGuarantee

end Splitcore.Interleaving
