import Splitcore.Interleaving.Prog

/-!
Runs of programs side by side, on one store, with a world outside.

Every event is one atomic thing: a run starts, executes its next statement, sends its
question, receives the answer, ends, or is gone for good; or the outside moves by itself. A
statement can fail without effect, and it can take effect and still be reported as failed.
Questions leave and answers arrive at separate events, so anything can happen in between.
-/

namespace Splitcore.Interleaving

variable {σ : Sig} {L X V : Type}

/-- One thing a run did. -/
inductive Did (σ : Sig) where
  | stmt (nm : σ.Name) (w : σ.Input) (s s' : σ.Store)
  | failed (nm : σ.Name) (e : σ.Err)
  | asked (q : σ.Ask)
  | answered (q : σ.Ask) (a : Except σ.Err (σ.Ans q))

/-- A run: what it was started as and on which store, what is left of it, whether its question
is under way, and what it did so far. Runs that ended or crashed stay, no longer alive. -/
structure Run (σ : Sig) (L : Type) where
  label : L
  born : σ.Store
  prog : Prog σ Unit
  asked : Bool
  log : List (Did σ)
  alive : Bool

structure Pool (σ : Sig) (L X : Type) where
  store : σ.Store
  out : X
  runs : List (Run σ L)

/-- The world around the runs: which program a label stands for, which runs may start, what
it learns from questions and from the ends of runs, which answers it may give, and how it
moves by itself. -/
structure Outside (σ : Sig) (L X V : Type) where
  entry : L → Prog σ Unit
  start : L → σ.Store → X → Option X
  send : L → σ.Ask → X → X := fun _ _ x => x
  answers : X → (q : σ.Ask) → Except σ.Err (σ.Ans q) → Bool := fun _ _ _ => true
  finish : L → Option σ.Err → X → X := fun _ _ x => x
  crash : L → X → X := fun _ x => x
  move : V → σ.Store → X → Option (σ.Store × X)

inductive Event (σ : Sig) (L V : Type) where
  | start (l : L)
  | exec (i : ℕ) (w : σ.Input)
  | lost (i : ℕ) (w : σ.Input) (e : σ.Err)
  | fail (i : ℕ) (e : σ.Err)
  | send (i : ℕ)
  | answer (i : ℕ) (o : (q : σ.Ask) → Except σ.Err (σ.Ans q))
  | finish (i : ℕ)
  | crash (i : ℕ)
  | move (v : V)

/-- The run whose statement an event executes. -/
def executes : Event σ L V → Option ℕ
  | .exec i _ | .lost i _ _ => some i
  | _ => none

namespace Run

def new (l : L) (s : σ.Store) (q : Prog σ Unit) : Run σ L := ⟨l, s, q, false, [], true⟩

/-- The run goes on as `q`, having done `ds`. -/
def goes (r : Run σ L) (q : Prog σ Unit) (ds : List (Did σ)) : Run σ L :=
  { r with prog := q, asked := false, log := r.log ++ ds }

def sent (r : Run σ L) (q : σ.Ask) : Run σ L :=
  { r with asked := true, log := r.log ++ [.asked q] }

def gone (r : Run σ L) : Run σ L := { r with alive := false }

end Run

namespace Pool

def live (p : Pool σ L X) (i : ℕ) : Option (Run σ L) := p.runs[i]?.filter (·.alive)

def put (p : Pool σ L X) (i : ℕ) (r : Run σ L) : Pool σ L X := { p with runs := p.runs.set i r }

end Pool

open Pool

def step (env : Outside σ L X V) (p : Pool σ L X) : Event σ L V → Option (Pool σ L X)
  | .start l => (env.start l p.store p.out).map fun x =>
      { p with out := x, runs := p.runs ++ [.new l p.store (env.entry l)] }
  | .exec i w => (p.live i).bind fun r => match r.prog with
      | .stmt nm eff k => some { p.put i
          (r.goes (k (.ok (w, p.store))) [.stmt nm w p.store (eff w p.store)]) with
          store := eff w p.store }
      | _ => none
  | .lost i w e => (p.live i).bind fun r => match r.prog with
      | .stmt nm eff k => some { p.put i
          (r.goes (k (.error e)) [.stmt nm w p.store (eff w p.store), .failed nm e]) with
          store := eff w p.store }
      | _ => none
  | .fail i e => (p.live i).bind fun r => match r.prog with
      | .stmt nm _ k => some (p.put i (r.goes (k (.error e)) [.failed nm e]))
      | _ => none
  | .send i => (p.live i).bind fun r => match r.prog, r.asked with
      | .ask q _, false => some { p.put i (r.sent q) with out := env.send r.label q p.out }
      | _, _ => none
  | .answer i o => (p.live i).bind fun r => match r.prog, r.asked with
      | .ask q k, true => if env.answers p.out q (o q) then
          some (p.put i (r.goes (k (o q)) [.answered q (o q)])) else none
      | _, _ => none
  | .finish i => (p.live i).bind fun r => match r.prog with
      | .ret _ => some { p.put i r.gone with out := env.finish r.label none p.out }
      | .raise e => some { p.put i r.gone with out := env.finish r.label (some e) p.out }
      | _ => none
  | .crash i => (p.live i).map fun r =>
      { p.put i r.gone with out := env.crash r.label p.out }
  | .move v => (env.move v p.store p.out).map fun y => { p with store := y.1, out := y.2 }

/-- The events one after another. -/
def run (env : Outside σ L X V) (p : Pool σ L X) (evs : List (Event σ L V)) :
    Option (Pool σ L X) :=
  evs.foldlM (step env) p

/-- Reachable by events that each satisfy `ok` in the state they happen in. -/
inductive Reach (env : Outside σ L X V) (ok : Pool σ L X → Event σ L V → Prop)
    (p : Pool σ L X) : Pool σ L X → Prop where
  | refl : Reach env ok p p
  | step {p' p'' : Pool σ L X} (ev : Event σ L V) : Reach env ok p p' → ok p' ev →
      step env p' ev = some p'' → Reach env ok p p''

/-- Any event. -/
def anyEvent (_ : Pool σ L X) (_ : Event σ L V) : Prop := True

/-- `ok` along all of `evs`. -/
def Along (env : Outside σ L X V) (ok : Pool σ L X → Event σ L V → Prop) :
    Pool σ L X → List (Event σ L V) → Prop
  | _, [] => True
  | p, ev :: evs => ok p ev ∧ ∀ p' ∈ step env p ev, Along env ok p' evs

instance decidableAlong (env : Outside σ L X V) (ok : Pool σ L X → Event σ L V → Prop)
    [∀ p ev, Decidable (ok p ev)] : (p : Pool σ L X) → (evs : List (Event σ L V)) →
    Decidable (Along env ok p evs)
  | _, [] => .isTrue trivial
  | p, ev :: evs =>
    have := fun p' => decidableAlong env ok p' evs
    inferInstanceAs (Decidable (ok p ev ∧ ∀ p' ∈ step env p ev, Along env ok p' evs))

variable {env : Outside σ L X V} {ok : Pool σ L X → Event σ L V → Prop}
  {p p' p'' : Pool σ L X} {i j : ℕ} {r r' : Run σ L}

lemma Reach.head {ev : Event σ L V} (hok : ok p ev) (hs : Interleaving.step env p ev = some p')
    (h : Reach env ok p' p'') : Reach env ok p p'' := by
  induction h with
  | refl => exact .step ev .refl hok hs
  | step ev' _ hok' hs' ih => exact .step ev' ih hok' hs'

theorem reach_of_run {evs : List (Event σ L V)} (ha : Along env ok p evs)
    (h : run env p evs = some p') : Reach env ok p p' := by
  induction evs generalizing p with
  | nil =>
    simp only [run, List.foldlM_nil, Option.pure_def, Option.some.injEq] at h
    subst h; exact .refl
  | cons ev evs ih =>
    simp only [run, List.foldlM_cons, Option.bind_eq_bind, Option.bind_eq_some_iff] at h
    obtain ⟨q, hq, hrest⟩ := h
    exact (ih (ha.2 q hq) hrest).head ha.1 hq

lemma along_of_all {evs : List (Event σ L V)} (h : ∀ ev ∈ evs, ∀ p, ok p ev) :
    Along env ok p evs := by
  induction evs generalizing p with
  | nil => trivial
  | cons ev evs ih => exact ⟨h ev (by simp) p, fun _ _ => ih fun ev hev => h ev (by simp [hev])⟩

lemma along_any (evs : List (Event σ L V)) : Along env anyEvent p evs :=
  along_of_all fun _ _ _ => trivial

lemma Along.and {ok' : Pool σ L X → Event σ L V → Prop} {evs : List (Event σ L V)} (h : Along env ok p evs)
    (h' : Along env ok' p evs) : Along env (fun p ev => ok p ev ∧ ok' p ev) p evs := by
  induction evs generalizing p with
  | nil => trivial
  | cons ev evs ih => exact ⟨⟨h.1, h'.1⟩, fun p' hp' => ih (h.2 p' hp') (h'.2 p' hp')⟩

lemma Reach.trans (h : Reach env ok p p') (h' : Reach env ok p' p'') : Reach env ok p p'' := by
  induction h' with
  | refl => exact h
  | step ev _ hok hs ih => exact .step ev ih hok hs

lemma Reach.any (h : Reach env ok p p') : Reach env anyEvent p p' := by
  induction h with
  | refl => exact .refl
  | step ev _ _ hs ih => exact .step ev ih trivial hs

/-- A property that every allowed event keeps holds wherever a run can get. -/
theorem Reach.keeps {P : Pool σ L X → Prop}
    (hstep : ∀ p ev p', P p → ok p ev → Interleaving.step env p ev = some p' → P p')
    (h : Reach env ok p p') (h0 : P p) : P p' := by
  induction h with
  | refl => exact h0
  | step ev _ hok hs ih => exact hstep _ ev _ ih hok hs

/-! ### Which runs an event leaves alone -/

lemma live_eq_some : p.live i = some r ↔ p.runs[i]? = some r ∧ r.alive = true := by
  simp [live, Option.filter_eq_some_iff]

lemma getElem?_put (h : p.runs[i]? = some r) :
    (p.put i r').runs[j]? = if j = i then some r' else p.runs[j]? := by
  have hi : i < p.runs.length := (List.getElem?_eq_some_iff.mp h).1
  simp only [put, List.getElem?_set]
  by_cases hj : j = i
  · subst hj; simp [hi]
  · simp [hj, Ne.symm hj]

/-- What one event makes of the runs: a new one at the end, or one that goes on; the others
stay as they were. -/
lemma live_put (h : p.live i = some r) :
    (p.put i r').live j = if j = i then some r' |>.filter (·.alive) else p.live j := by
  unfold live
  rw [getElem?_put (live_eq_some.mp h).1]
  by_cases hj : j = i <;> simp [hj]

/-! ### What each event does, spelled out -/

lemma step_start {l : L} (h : step env p (.start l) = some p') :
    ∃ x, env.start l p.store p.out = some x ∧
      p' = { p with out := x, runs := p.runs ++ [.new l p.store (env.entry l)] } := by
  simp only [step, Option.map_eq_some_iff] at h
  obtain ⟨x, hx, rfl⟩ := h
  exact ⟨x, hx, rfl⟩

lemma step_exec {w : σ.Input} (h : step env p (.exec i w) = some p') :
    ∃ r nm eff k, p.live i = some r ∧ r.prog = .stmt nm eff k ∧
      p' = { p.put i (r.goes (k (.ok (w, p.store))) [.stmt nm w p.store (eff w p.store)]) with
        store := eff w p.store } := by
  simp only [step, Option.bind_eq_some_iff] at h
  obtain ⟨r, hr, h⟩ := h
  split at h
  · rename_i nm eff k hp
    exact ⟨r, nm, eff, k, hr, hp, (Option.some.inj h).symm⟩
  · cases h

lemma step_lost {w : σ.Input} {e : σ.Err} (h : step env p (.lost i w e) = some p') :
    ∃ r nm eff k, p.live i = some r ∧ r.prog = .stmt nm eff k ∧
      p' = { p.put i
        (r.goes (k (.error e)) [.stmt nm w p.store (eff w p.store), .failed nm e]) with
        store := eff w p.store } := by
  simp only [step, Option.bind_eq_some_iff] at h
  obtain ⟨r, hr, h⟩ := h
  split at h
  · rename_i nm eff k hp
    exact ⟨r, nm, eff, k, hr, hp, (Option.some.inj h).symm⟩
  · cases h

lemma step_fail {e : σ.Err} (h : step env p (.fail i e) = some p') :
    ∃ r nm eff k, p.live i = some r ∧ r.prog = .stmt nm eff k ∧
      p' = p.put i (r.goes (k (.error e)) [.failed nm e]) := by
  simp only [step, Option.bind_eq_some_iff] at h
  obtain ⟨r, hr, h⟩ := h
  split at h
  · rename_i nm eff k hp
    exact ⟨r, nm, eff, k, hr, hp, (Option.some.inj h).symm⟩
  · cases h

lemma step_send (h : step env p (.send i) = some p') :
    ∃ r q k, p.live i = some r ∧ r.prog = .ask q k ∧ r.asked = false ∧
      p' = { p.put i (r.sent q) with out := env.send r.label q p.out } := by
  simp only [step, Option.bind_eq_some_iff] at h
  obtain ⟨r, hr, h⟩ := h
  split at h
  · rename_i q k hp ha
    exact ⟨r, q, k, hr, hp, ha, (Option.some.inj h).symm⟩
  · cases h

lemma step_answer {o : (q : σ.Ask) → Except σ.Err (σ.Ans q)}
    (h : step env p (.answer i o) = some p') :
    ∃ r q k, p.live i = some r ∧ r.prog = .ask q k ∧ r.asked = true ∧
      env.answers p.out q (o q) = true ∧
      p' = p.put i (r.goes (k (o q)) [.answered q (o q)]) := by
  simp only [step, Option.bind_eq_some_iff] at h
  obtain ⟨r, hr, h⟩ := h
  split at h
  · rename_i q k hp ha
    split at h
    · rename_i hans
      exact ⟨r, q, k, hr, hp, ha, hans, (Option.some.inj h).symm⟩
    · cases h
  · cases h

lemma step_finish (h : step env p (.finish i) = some p') :
    ∃ r res, p.live i = some r ∧ (r.prog = .ret () ∧ res = none ∨ ∃ e, r.prog = .raise e ∧
      res = some e) ∧ p' = { p.put i r.gone with out := env.finish r.label res p.out } := by
  simp only [step, Option.bind_eq_some_iff] at h
  obtain ⟨r, hr, h⟩ := h
  split at h
  · rename_i a hp
    exact ⟨r, none, hr, .inl ⟨hp, rfl⟩, (Option.some.inj h).symm⟩
  · rename_i e hp
    exact ⟨r, some e, hr, .inr ⟨e, hp, rfl⟩, (Option.some.inj h).symm⟩
  · cases h

lemma step_crash (h : step env p (.crash i) = some p') :
    ∃ r, p.live i = some r ∧ p' = { p.put i r.gone with out := env.crash r.label p.out } := by
  simp only [step, Option.map_eq_some_iff] at h
  obtain ⟨r, hr, rfl⟩ := h
  exact ⟨r, hr, rfl⟩

lemma step_move {v : V} (h : step env p (.move v) = some p') :
    ∃ s x, env.move v p.store p.out = some (s, x) ∧ p' = { p with store := s, out := x } := by
  simp only [step, Option.map_eq_some_iff] at h
  obtain ⟨⟨s, x⟩, hy, rfl⟩ := h
  exact ⟨s, x, hy, rfl⟩

/-- A run that ended is over. -/
lemma live_finish (h : step env p (.finish i) = some p') : p'.live i = none := by
  obtain ⟨r, res, hr, -, rfl⟩ := step_finish h
  exact (live_put hr).trans (by simp [Run.gone])

lemma live_crash (h : step env p (.crash i) = some p') : p'.live i = none := by
  obtain ⟨r, hr, rfl⟩ := step_crash h
  exact (live_put hr).trans (by simp [Run.gone])

/-! ### What runs did stays done -/

/-- Every run is still there, as what it was started as, and its log has only grown. -/
def Extends (p p' : Pool σ L X) : Prop :=
  ∀ r ∈ p.runs, ∃ r' ∈ p'.runs, r'.label = r.label ∧ r.log <+: r'.log

lemma extends_of_runs (h : p'.runs = p.runs) : Extends p p' :=
  fun r hr => ⟨r, h ▸ hr, rfl, List.prefix_rfl⟩

lemma extends_put (hr : p.live i = some r) (h : p'.runs = (p.put i r').runs)
    (hlabel : r'.label = r.label) (hlog : r.log <+: r'.log) : Extends p p' := by
  intro q hq
  obtain ⟨j, hj⟩ := List.getElem?_of_mem hq
  have hput : (p.put i r').runs[j]? = if j = i then some r' else p.runs[j]? :=
    getElem?_put (live_eq_some.mp hr).1
  rw [← h] at hput
  by_cases hji : j = i
  · subst hji
    obtain rfl : r = q := Option.some.inj ((live_eq_some.mp hr).1.symm.trans hj)
    rw [if_pos rfl] at hput
    exact ⟨r', List.mem_of_getElem? hput, hlabel, hlog⟩
  · rw [if_neg hji, hj] at hput
    exact ⟨q, List.mem_of_getElem? hput, rfl, List.prefix_rfl⟩

theorem step_extends {ev : Event σ L V} (h : step env p ev = some p') : Extends p p' := by
  cases ev with
  | start l =>
    obtain ⟨x, -, rfl⟩ := step_start h
    exact fun r hr => ⟨r, List.mem_append_left _ hr, rfl, List.prefix_rfl⟩
  | exec i w =>
    obtain ⟨r, nm, eff, k, hr, -, rfl⟩ := step_exec h
    exact extends_put hr rfl rfl (List.prefix_append _ _)
  | lost i w e =>
    obtain ⟨r, nm, eff, k, hr, -, rfl⟩ := step_lost h
    exact extends_put hr rfl rfl (List.prefix_append _ _)
  | fail i e =>
    obtain ⟨r, nm, eff, k, hr, -, rfl⟩ := step_fail h
    exact extends_put hr rfl rfl (List.prefix_append _ _)
  | send i =>
    obtain ⟨r, q, k, hr, -, -, rfl⟩ := step_send h
    exact extends_put hr rfl rfl (List.prefix_append _ _)
  | answer i o =>
    obtain ⟨r, q, k, hr, -, -, -, rfl⟩ := step_answer h
    exact extends_put hr rfl rfl (List.prefix_append _ _)
  | finish i =>
    obtain ⟨r, res, hr, -, rfl⟩ := step_finish h
    exact extends_put hr rfl rfl List.prefix_rfl
  | crash i =>
    obtain ⟨r, hr, rfl⟩ := step_crash h
    exact extends_put hr rfl rfl List.prefix_rfl
  | move v =>
    obtain ⟨s, x, -, rfl⟩ := step_move h
    exact extends_of_runs rfl

/-! ### What every statement of a run does -/

/-- **What a program hands on to what is left of it**, the programs of the runs have. -/
theorem inherited_step {H : Prog σ Unit → Prop} {ev : Event σ L V}
    (hstmt : ∀ nm eff k r, H (.stmt nm eff k) → H (k r)) (hask : ∀ q k a, H (.ask q k) → H (k a))
    (h : ∀ r ∈ p.runs, H r.prog) (hentry : ∀ l, ev = .start l → H (env.entry l))
    (hs : step env p ev = some p') : ∀ r ∈ p'.runs, H r.prog := by
  have hlive : ∀ {i : ℕ} {r : Run σ L}, p.live i = some r → H r.prog :=
    fun hr => h _ (List.mem_of_getElem? (live_eq_some.mp hr).1)
  have hput : ∀ {i : ℕ} {r : Run σ L}, H r.prog → ∀ q ∈ (p.put i r).runs, H q.prog := by
    intro i r hr q hq
    rcases List.mem_or_eq_of_mem_set hq with hq | rfl
    · exact h q hq
    · exact hr
  cases ev with
  | start l =>
    obtain ⟨x, -, rfl⟩ := step_start hs
    intro q hq
    rcases List.mem_append.mp hq with hq | hq
    · exact h q hq
    · rw [List.mem_singleton.mp hq]
      exact hentry l rfl
  | exec i w =>
    obtain ⟨r, nm, eff, k, hr, hp, rfl⟩ := step_exec hs
    have hprog := hlive hr
    rw [hp] at hprog
    exact hput (hstmt nm eff k _ hprog)
  | lost i w e =>
    obtain ⟨r, nm, eff, k, hr, hp, rfl⟩ := step_lost hs
    have hprog := hlive hr
    rw [hp] at hprog
    exact hput (hstmt nm eff k _ hprog)
  | fail i e =>
    obtain ⟨r, nm, eff, k, hr, hp, rfl⟩ := step_fail hs
    have hprog := hlive hr
    rw [hp] at hprog
    exact hput (hstmt nm eff k _ hprog)
  | send i =>
    obtain ⟨r, q, k, hr, -, -, rfl⟩ := step_send hs
    have hprog := hlive hr
    exact hput (r := r.sent q) hprog
  | answer i o =>
    obtain ⟨r, q, k, hr, hp, -, -, rfl⟩ := step_answer hs
    have hprog := hlive hr
    rw [hp] at hprog
    exact hput (hask q k _ hprog)
  | finish i =>
    obtain ⟨r, res, hr, -, rfl⟩ := step_finish hs
    have hprog := hlive hr
    exact hput (r := r.gone) hprog
  | crash i =>
    obtain ⟨r, hr, rfl⟩ := step_crash hs
    have hprog := hlive hr
    exact hput (r := r.gone) hprog
  | move v =>
    obtain ⟨s, x, -, rfl⟩ := step_move hs
    exact h

/-- **What every statement of the programs does, every statement of the runs does.** -/
theorem each_step {P : σ.Name → σ.Store → σ.Store → Prop} {ev : Event σ L V}
    (h : ∀ r ∈ p.runs, r.prog.Each P) (hentry : ∀ l, ev = .start l → (env.entry l).Each P)
    (hs : step env p ev = some p') : ∀ r ∈ p'.runs, r.prog.Each P :=
  inherited_step (fun _ _ _ r h => h.2 r) (fun _ _ a h => h a) h hentry hs

/-! ### What one event adds to a log -/

/-- The run's next statement makes the one store the other. -/
def Executes (p p' : Pool σ L X) (r : Run σ L) (nm : σ.Name) (w : σ.Input) : Prop :=
  ∃ eff k, r.prog = .stmt nm eff k ∧ p'.store = eff w p.store

/-- What an event adds to the log of the run it is about; only a statement changes the store. -/
inductive Adds (p p' : Pool σ L X) (ev : Event σ L V) (i : ℕ) (r : Run σ L) :
    List (Did σ) → Prop
  | stmt (nm : σ.Name) (w : σ.Input) (hev : executes ev = some i) (hex : Executes p p' r nm w) :
      Adds p p' ev i r [.stmt nm w p.store p'.store]
  | lost (nm : σ.Name) (w : σ.Input) (e : σ.Err) (hev : executes ev = some i)
      (hex : Executes p p' r nm w) :
      Adds p p' ev i r [.stmt nm w p.store p'.store, .failed nm e]
  | failed (hstore : p'.store = p.store) (nm : σ.Name) (e : σ.Err) : Adds p p' ev i r [.failed nm e]
  | asked (hstore : p'.store = p.store) (q : σ.Ask) (k : Except σ.Err (σ.Ans q) → Prog σ Unit)
      (hp : r.prog = .ask q k) (ha : r.asked = false) : Adds p p' ev i r [.asked q]
  | answered (hstore : p'.store = p.store) (q : σ.Ask) (k : Except σ.Err (σ.Ans q) → Prog σ Unit)
      (hp : r.prog = .ask q k) (a : Except σ.Err (σ.Ans q)) : Adds p p' ev i r [.answered q a]
  | nothing (hstore : p'.store = p.store) : Adds p p' ev i r []

/-- An event executes at most one statement, on the store as it is. -/
lemma Adds.stmt_mem {ds : List (Did σ)} {ev : Event σ L V} {nm : σ.Name} {w : σ.Input}
    {s s' : σ.Store} (h : Adds p p' ev i r ds) (hd : .stmt nm w s s' ∈ ds) : s = p.store ∧ s' = p'.store := by
  cases h <;> simp at hd
  · exact hd.2.2
  · exact hd.2.2

/-- `r'` is what `r` has become, having done `ds` more, or having gone. -/
structure Continues (r r' : Run σ L) (ds : List (Did σ)) : Prop where
  label : r'.label = r.label
  born : r'.born = r.born
  log : r'.log = r.log ++ ds
  gone : ds = [] → r'.alive = false

lemma continues_put {ev : Event σ L V} {ds : List (Did σ)} {q : Run σ L} (hr : p.live i = some r)
    (hruns : p'.runs = (p.put i q).runs) (hq : Continues r q ds) (hadds : Adds p p' ev i r ds)
    (h : p'.runs[j]? = some r') : (p.runs[j]? = some r' ∧ j ≠ i) ∨
      ∃ r ds, p.live j = some r ∧ Continues r r' ds ∧ Adds p p' ev j r ds := by
  rw [hruns, getElem?_put (live_eq_some.mp hr).1] at h
  by_cases hj : j = i
  · subst hj
    rw [if_pos rfl, Option.some.injEq] at h
    subst h; exact .inr ⟨r, ds, hr, hq, hadds⟩
  · rw [if_neg hj] at h
    exact .inl ⟨h, hj⟩

/-- The run an event is about. -/
def Event.about : Event σ L V → Option ℕ
  | .exec i _ | .lost i _ _ | .fail i _ | .send i | .answer i _ | .finish i | .crash i => some i
  | .start _ | .move _ => none

/-- What the log of run `i` says of an event. -/
inductive Tells (i : ℕ) : Event σ L V → List (Did σ) → Prop
  | exec (nm : σ.Name) (w : σ.Input) (s s' : σ.Store) : Tells i (.exec i w) [.stmt nm w s s']
  | lost (nm : σ.Name) (w : σ.Input) (s s' : σ.Store) (e : σ.Err) :
      Tells i (.lost i w e) [.stmt nm w s s', .failed nm e]
  | fail (nm : σ.Name) (e : σ.Err) : Tells i (.fail i e) [.failed nm e]
  | send (q : σ.Ask) : Tells i (.send i) [.asked q]
  | answer (q : σ.Ask) (o : (q : σ.Ask) → Except σ.Err (σ.Ans q)) : Tells i (.answer i o) [.answered q (o q)]
  | finish : Tells i (.finish i) []
  | crash : Tells i (.crash i) []

/-- An event starts a run, goes on with one, or is a move of the outside. -/
inductive Concerns (env : Outside σ L X V) (p p' : Pool σ L X) (ev : Event σ L V) : Prop
  | start (l : L) (hev : ev = .start l) (hruns : p'.runs = p.runs ++ [.new l p.store (env.entry l)])
      (hstore : p'.store = p.store)
  | goes (i : ℕ) (r r' : Run σ L) (ds : List (Did σ)) (htells : Tells i ev ds) (hr : p.live i = some r)
      (hruns : p'.runs = (p.put i r').runs) (hgoes : Continues r r' ds) (hadds : Adds p p' ev i r ds)
  | move (v : V) (hev : ev = .move v) (hruns : p'.runs = p.runs)

lemma Tells.about {ev : Event σ L V} {ds : List (Did σ)} (h : Tells i ev ds) : ev.about = some i := by
  cases h <;> rfl

theorem step_concerns {ev : Event σ L V} (hs : step env p ev = some p') : Concerns env p p' ev := by
  cases ev with
  | start l =>
    obtain ⟨x, -, rfl⟩ := step_start hs
    exact .start l rfl rfl rfl
  | exec i w =>
    obtain ⟨r, nm, eff, k, hr, hp, rfl⟩ := step_exec hs
    exact .goes i r _ _ (.exec nm w _ _) hr rfl ⟨rfl, rfl, rfl, nofun⟩ (.stmt nm w rfl ⟨eff, k, hp, rfl⟩)
  | lost i w e =>
    obtain ⟨r, nm, eff, k, hr, hp, rfl⟩ := step_lost hs
    exact .goes i r _ _ (.lost nm w _ _ e) hr rfl ⟨rfl, rfl, rfl, nofun⟩ (.lost nm w e rfl ⟨eff, k, hp, rfl⟩)
  | fail i e =>
    obtain ⟨r, nm, eff, k, hr, -, hp'⟩ := step_fail hs
    have hstore : p'.store = p.store := by rw [hp']; rfl
    exact .goes i r _ _ (.fail nm e) hr (congrArg Pool.runs hp') ⟨rfl, rfl, rfl, nofun⟩ (.failed hstore nm e)
  | send i =>
    obtain ⟨r, q, k, hr, hp, ha, hp'⟩ := step_send hs
    have hstore : p'.store = p.store := by rw [hp']; rfl
    exact .goes i r (r.sent q) _ (.send q) hr (by rw [hp']) ⟨rfl, rfl, rfl, nofun⟩ (.asked hstore q k hp ha)
  | answer i o =>
    obtain ⟨r, q, k, hr, hp, -, -, hp'⟩ := step_answer hs
    have hstore : p'.store = p.store := by rw [hp']; rfl
    exact .goes i r _ _ (.answer q o) hr (congrArg Pool.runs hp') ⟨rfl, rfl, rfl, nofun⟩
      (.answered hstore q k hp (o q))
  | finish i =>
    obtain ⟨r, res, hr, -, hp'⟩ := step_finish hs
    have hstore : p'.store = p.store := by rw [hp']; rfl
    exact .goes i r r.gone [] .finish hr (by rw [hp']) ⟨rfl, rfl, by simp [Run.gone], fun _ => rfl⟩
      (.nothing hstore)
  | crash i =>
    obtain ⟨r, hr, hp'⟩ := step_crash hs
    have hstore : p'.store = p.store := by rw [hp']; rfl
    exact .goes i r r.gone [] .crash hr (by rw [hp']) ⟨rfl, rfl, by simp [Run.gone], fun _ => rfl⟩
      (.nothing hstore)
  | move v =>
    obtain ⟨s, x, -, rfl⟩ := step_move hs
    exact .move v rfl rfl

/-- What all logs say only, if what an event adds to one does. -/
lemma logged_step {P : Did σ → Prop} {ev : Event σ L V} (h : ∀ r ∈ p.runs, ∀ d ∈ r.log, P d)
    (htells : ∀ i ds, Tells i ev ds → ∀ d ∈ ds, P d) (hs : step env p ev = some p') :
    ∀ r ∈ p'.runs, ∀ d ∈ r.log, P d := by
  intro r' hr'
  cases step_concerns hs with
  | start l hev hruns hstore =>
    rw [hruns, List.mem_append, List.mem_singleton] at hr'
    rcases hr' with hr' | rfl
    · exact h r' hr'
    · exact fun d hd => by cases hd
  | goes i r r'' ds hds hr hruns hgoes hadds =>
    rw [hruns] at hr'
    rcases List.mem_or_eq_of_mem_set hr' with hr' | rfl
    · exact h r' hr'
    · intro d hd
      rw [hgoes.log, List.mem_append] at hd
      rcases hd with hd | hd
      · exact h r (List.mem_of_getElem? (live_eq_some.mp hr).1) d hd
      · exact htells i ds hds d hd
  | move v hev hruns => exact h r' (hruns ▸ hr')

/-- A run that the event is not about stays as it is. -/
lemma live_apart {ev : Event σ L V} (hs : step env p ev = some p') (hne : ev.about ≠ some i)
    (hr : p.live i = some r) : p'.live i = some r := by
  rw [live_eq_some] at hr ⊢
  refine ⟨?_, hr.2⟩
  cases step_concerns hs with
  | start l hev hruns hstore =>
    rw [hruns, List.getElem?_append_left (List.getElem?_eq_some_iff.mp hr.1).1]
    exact hr.1
  | goes j q q' ds htells hq hruns hgoes hadds =>
    rw [hruns, getElem?_put (live_eq_some.mp hq).1, if_neg]
    · exact hr.1
    · rintro rfl
      exact hne htells.about
  | move v hev hruns =>
    rw [hruns]
    exact hr.1

/-- A run that executed a statement goes on. -/
lemma live_executes {ev : Event σ L V} (hs : step env p ev = some p') (hev : executes ev = some i)
    (hr : p'.runs[i]? = some r') : p'.live i = some r' := by
  have hput : ∀ {r q : Run σ L}, p.live i = some r → q.alive = true → p'.runs = (p.put i q).runs →
      p'.live i = some r' := by
    intro r q hlive hq hruns
    rw [hruns, getElem?_put (live_eq_some.mp hlive).1, if_pos rfl, Option.some.injEq] at hr
    subst hr
    rw [live_eq_some, hruns, getElem?_put (live_eq_some.mp hlive).1, if_pos rfl]
    exact ⟨rfl, hq⟩
  cases ev with
  | exec j w =>
    obtain rfl : j = i := Option.some.inj hev
    obtain ⟨r, nm, eff, k, hlive, -, rfl⟩ := step_exec hs
    exact hput (q := r.goes _ _) hlive (live_eq_some.mp hlive).2 rfl
  | lost j w e =>
    obtain rfl : j = i := Option.some.inj hev
    obtain ⟨r, nm, eff, k, hlive, -, rfl⟩ := step_lost hs
    exact hput (q := r.goes _ _) hlive (live_eq_some.mp hlive).2 rfl
  | _ => cases hev

/-- **Where a run comes from**: it was there and did nothing, it was started, or it goes on. -/
theorem step_run {ev : Event σ L V} (hs : step env p ev = some p') (h : p'.runs[j]? = some r') :
    (p.runs[j]? = some r' ∧ executes ev ≠ some j) ∨
    (∃ l, ev = .start l ∧ j = p.runs.length ∧ r' = .new l p.store (env.entry l)) ∨
    ∃ r ds, p.live j = some r ∧ Continues r r' ds ∧ Adds p p' ev j r ds := by
  cases step_concerns hs with
  | start l hev hruns hstore =>
    subst hev
    rw [hruns] at h
    rcases Nat.lt_or_ge j p.runs.length with hlt | hge
    · rw [List.getElem?_append_left hlt] at h
      exact .inl ⟨h, nofun⟩
    · rw [List.getElem?_append_right hge, List.getElem?_singleton] at h
      split at h
      · exact .inr (.inl ⟨l, rfl, by omega, (Option.some.inj h).symm⟩)
      · cases h
  | goes i r q ds htells hr hruns hgoes hadds =>
    rcases continues_put hr hruns hgoes hadds h with ⟨hold, hne⟩ | hgoes
    · refine .inl ⟨hold, fun hj => hne ?_⟩
      cases htells <;> simp only [executes, Option.some.injEq, reduceCtorEq] at hj <;> exact hj.symm
    · exact .inr (.inr hgoes)
  | move v hev hruns =>
    subst hev
    exact .inl ⟨hruns ▸ h, nofun⟩

end Splitcore.Interleaving
