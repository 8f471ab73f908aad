import Mathlib.Data.List.Induction
import Splitcore.Interleaving.Monitor

/-!
The history of a pool: what its runs did, in the order of the events.
-/

namespace Splitcore.Interleaving

variable {σ : Sig} {L X V : Type}

def Pool.logAt (p : Pool σ L X) (i : ℕ) : List (Did σ) := (p.runs[i]?.map (·.log)).getD []

/-- What an event adds to the log of the run it is about. -/
def news (p p' : Pool σ L X) (ev : Event σ L V) : List (ℕ × Did σ) :=
  ev.about.elim [] fun i => ((p'.logAt i).drop (p.logAt i).length).map (i, ·)

/-- What the runs did, oldest first, each thing with the number of its run. -/
def history (env : Outside σ L X V) (p : Pool σ L X) : List (Event σ L V) → List (ℕ × Did σ)
  | [] => []
  | ev :: evs => (step env p ev).elim [] fun p' => news p p' ev ++ history env p' evs

variable {env : Outside σ L X V} {p p' p₀ : Pool σ L X} {ev : Event σ L V} {evs : List (Event σ L V)}

lemma run_cons : run env p (ev :: evs) = (step env p ev).bind fun p' => run env p' evs := rfl

lemma run_snoc : run env p (evs ++ [ev]) = (run env p evs).bind fun p' => step env p' ev := by
  simp [run, List.foldlM_append]

lemma history_snoc (h : run env p evs = some p') {p'' : Pool σ L X} (hs : step env p' ev = some p'') :
    history env p (evs ++ [ev]) = history env p evs ++ news p' p'' ev := by
  induction evs generalizing p with
  | nil =>
    obtain rfl : p = p' := by simpa [run] using h
    simp [history, hs]
  | cons ev' evs ih =>
    rw [run_cons, Option.bind_eq_some_iff] at h
    obtain ⟨q, hq, hrest⟩ := h
    rw [List.cons_append, history, history, hq]
    simp only [Option.elim_some, ih hrest, List.append_assoc]

/-- An event about a run adds to the history what it adds to the run's log; others add nothing, and start at
most one more run. -/
lemma news_of_step (hs : step env p ev = some p') :
    (news p p' ev = [] ∧ executes ev = none ∧ (∀ i, p'.logAt i = p.logAt i) ∧
      ∀ i r, p'.live i = some r → p.live i = some r ∨ ∃ l, r = .new l p.store (env.entry l)) ∨
      ∃ i r r' ds, p.live i = some r ∧ p'.runs = (p.put i r').runs ∧ Continues r r' ds ∧
        Adds p p' ev i r ds ∧ news p p' ev = ds.map (i, ·) ∧ Tells i ev ds := by
  cases step_concerns hs with
  | start l hev hruns =>
    have hget : ∀ i : ℕ, p'.runs[i]? = p.runs[i]? ∨
        p.runs[i]? = none ∧ p'.runs[i]? = some (Run.new l p.store (env.entry l)) := by
      intro i
      rw [hruns]
      rcases Nat.lt_trichotomy i p.runs.length with hlt | rfl | hgt
      · exact .inl (List.getElem?_append_left hlt)
      · exact .inr ⟨List.getElem?_eq_none (Nat.le_refl _), by simp⟩
      · refine .inl ?_
        rw [List.getElem?_eq_none (by simp; omega), List.getElem?_eq_none (by omega)]
    refine .inl ⟨by subst hev; rfl, by subst hev; rfl, fun i => ?_, fun i r hr => ?_⟩
    · rcases hget i with hsame | ⟨hnone, hnew⟩
      · simp only [Pool.logAt, hsame]
      · simp only [Pool.logAt, hnone, hnew, Option.map_some, Option.map_none, Option.getD_some, Option.getD_none]
        rfl
    · rw [live_eq_some] at hr ⊢
      rcases hget i with hsame | ⟨-, hnew⟩
      · rw [hsame] at hr
        exact .inl hr
      · rw [hnew, Option.some.injEq] at hr
        exact .inr ⟨l, hr.1.symm⟩
  | goes i r r' ds htells hr hruns hgoes hadds =>
    refine .inr ⟨i, r, r', ds, hr, hruns, hgoes, hadds, ?_, htells⟩
    have hbefore : p.logAt i = r.log := by rw [Pool.logAt, (live_eq_some.mp hr).1]; rfl
    have hafter : p'.logAt i = r.log ++ ds := by
      rw [Pool.logAt, hruns, getElem?_put (live_eq_some.mp hr).1, if_pos rfl]
      exact hgoes.log
    rw [news, htells.about, Option.elim_some, hbefore, hafter, List.drop_left]
  | move v hev hruns =>
    refine .inl ⟨by subst hev; rfl, by subst hev; rfl, fun i => by simp only [Pool.logAt, hruns],
      fun i r hr => .inl ?_⟩
    rwa [Pool.live, hruns] at hr

/-- Each run's part of the history is its log. -/
def Logs (h : List (ℕ × Did σ)) (p : Pool σ L X) : Prop :=
  ∀ i, p.logAt i = (h.filter (·.1 = i)).map Prod.snd

lemma Logs.mem {h : List (ℕ × Did σ)} (hlogs : Logs h p) {i : ℕ} {d : Did σ} :
    d ∈ p.logAt i ↔ (i, d) ∈ h := by
  simp [hlogs i]

lemma logAt_live {i : ℕ} {r : Run σ L} (hr : p.live i = some r) : p.logAt i = r.log := by
  rw [Pool.logAt, (live_eq_some.mp hr).1]; rfl

lemma logs_step {h : List (ℕ × Did σ)} (hlogs : Logs h p) (hs : step env p ev = some p') :
    Logs (h ++ news p p' ev) p' := by
  intro i
  rcases news_of_step hs with ⟨hnews, -, hsame, -⟩ | ⟨j, r, r', ds, hr, hruns, hgoes, -, hnews, -⟩
  · rw [hnews, List.append_nil, hsame, hlogs]
  · rw [hnews, List.filter_append, List.map_append, ← hlogs, Pool.logAt, hruns,
      getElem?_put (live_eq_some.mp hr).1]
    by_cases hij : i = j
    · subst hij
      have hall : ∀ ds : List (Did σ), ((ds.map (i, ·)).filter (·.1 = i)).map Prod.snd = ds := by
        intro ds
        induction ds with
        | nil => rfl
        | cons d ds ih => simp [ih]
      rw [if_pos rfl, logAt_live hr, hall]
      exact hgoes.log
    · rw [if_neg hij]
      simp [Ne.symm hij, Pool.logAt]

lemma along_snoc {ok : Pool σ L X → Event σ L V → Prop} (h : Along env ok p (evs ++ [ev])) :
    Along env ok p evs ∧ ∀ p' ∈ run env p evs, ok p' ev := by
  induction evs generalizing p with
  | nil =>
    refine ⟨trivial, fun p' hp' => ?_⟩
    obtain rfl : p = p' := by simpa [run] using hp'
    exact h.1
  | cons ev' evs ih =>
    refine ⟨⟨h.1, fun q hq => (ih (h.2 q hq)).1⟩, fun p' hp' => ?_⟩
    rw [run_cons, Option.mem_def, Option.bind_eq_some_iff] at hp'
    obtain ⟨q, hq, hrest⟩ := hp'
    exact (ih (h.2 q hq)).2 p' hrest

/-- **Histories by their last event**: what holds of the start and is kept by an allowed event that follows
what happened so far holds after any allowed events. -/
theorem run_history_along {ok : Pool σ L X → Event σ L V → Prop} {P : List (ℕ × Did σ) → Pool σ L X → Prop}
    (hruns : p₀.runs = []) (h₀ : P [] p₀)
    (hstep : ∀ h p ev p', Logs h p → P h p → ok p ev → step env p ev = some p' → P (h ++ news p p' ev) p')
    (halong : Along env ok p₀ evs) (hrun : run env p₀ evs = some p) : P (history env p₀ evs) p := by
  suffices h : Logs (history env p₀ evs) p ∧ P (history env p₀ evs) p from h.2
  induction evs using List.reverseRecOn generalizing p with
  | nil =>
    obtain rfl : p₀ = p := by simpa [run] using hrun
    exact ⟨fun i => by simp [Pool.logAt, hruns, history], h₀⟩
  | append_singleton evs ev ih =>
    rw [run_snoc, Option.bind_eq_some_iff] at hrun
    obtain ⟨q, hq, hs⟩ := hrun
    obtain ⟨hbefore, hok⟩ := along_snoc halong
    rw [history_snoc hq hs]
    obtain ⟨hlogs, hP⟩ := ih hbefore hq
    exact ⟨logs_step hlogs hs, hstep _ q ev p hlogs hP (hok q hq) hs⟩

theorem run_history {P : List (ℕ × Did σ) → Pool σ L X → Prop} (hruns : p₀.runs = []) (h₀ : P [] p₀)
    (hstep : ∀ h p ev p', Logs h p → P h p → step env p ev = some p' → P (h ++ news p p' ev) p')
    (hrun : run env p₀ evs = some p) : P (history env p₀ evs) p :=
  run_history_along hruns h₀ (fun h p ev p' hlogs hP _ hs => hstep h p ev p' hlogs hP hs) (along_any evs) hrun

/-! ### What holds of every moment of a history -/

/-- Everything that happened, happened after what it had to. -/
def Throughout {α : Type} (P : List α → α → Prop) (h : List α) : Prop :=
  ∀ before x, before ++ [x] <+: h → P before x

lemma throughout_nil {α : Type} {P : List α → α → Prop} : Throughout P [] := by
  intro before x hpre
  simp at hpre

lemma throughout_snoc {α : Type} {P : List α → α → Prop} {h : List α} {x : α} (hh : Throughout P h)
    (hx : P h x) : Throughout P (h ++ [x]) := by
  intro before y hpre
  rcases List.prefix_concat_iff.mp hpre with heq | hpre
  · obtain ⟨rfl, hxy⟩ := List.append_inj' heq rfl
    obtain rfl : y = x := by simpa using hxy
    exact hx
  · exact hh before y hpre

end Splitcore.Interleaving
