import Splitcore.Interleaving.History

/-!
What is so of every log: a property that every statement and every question of a program leaves to the log
of what the program did so far.
-/

namespace Splitcore.Interleaving

variable {σ : Sig} {L X V α β : Type}

/-- Something that came to the run, and was not done by it. -/
def Did.came : Did σ → Bool
  | .failed _ _ | .answered _ _ => true
  | .stmt _ _ _ _ | .asked _ => false

/-- Nothing was changed. -/
def OnlyReads (log : List (Did σ)) : Prop := ∀ nm w s s', .stmt nm w s s' ∈ log → s' = s

lemma OnlyReads.snoc {log : List (Did σ)} {d : Did σ} (h : OnlyReads log)
    (hd : ∀ nm w s s', d = .stmt nm w s s' → s' = s) : OnlyReads (log ++ [d]) := by
  intro nm w s s' hmem
  rcases List.mem_append.mp hmem with hmem | hmem
  · exact h nm w s s' hmem
  · exact hd nm w s s' (List.mem_singleton.mp hmem).symm

/-- Remembers everything; what the run does next has to leave a log in `P`. -/
def recording (P : L → List (Did σ) → Prop) : Monitor σ L where
  State := L × List (Did σ)
  init l _ := (l, [])
  next g d := (g.1, g.2 ++ [d])
  rely _ _ _ := True
  guar g nm w s s' := P g.1 (g.2 ++ [.stmt nm w s s'])
  query g q := P g.1 (g.2 ++ [.asked q])

variable {P : L → List (Did σ) → Prop}

lemma recording_at (r : Run σ L) : (recording P).at_ r = (r.label, r.log) := by
  refine Monitor.at_log (M := recording P) (P := fun g ds => g = (r.label, ds)) r rfl fun g ds d hg => ?_
  rw [hg]
  rfl

/-- **What every program leaves to its log** is so of every log there is, if what comes to a run does not
change it. -/
theorem recorded {env : Outside σ L X V} {ok : Pool σ L X → Event σ L V → Prop} {p₀ p : Pool σ L X}
    (hnil : ∀ l, P l []) (hcame : ∀ l ds d, d.came = true → P l ds → P l (ds ++ [d]))
    (hentry : ∀ l, Obeys (recording P) (fun _ _ => True) (env.entry l) (l, []))
    (hruns : p₀.runs = []) (hreach : Reach env ok p₀ p) : ∀ r ∈ p.runs, P r.label r.log := by
  have hrely : ∀ p (ev : Event σ L V), (recording P).Relies (X := X) p ev := by
    intro p ev
    cases ev <;> simp [Monitor.Relies, recording]
  suffices h : (recording P).WatchesAll p ∧ ∀ r ∈ p.runs, P r.label r.log from h.2
  refine hreach.keeps (P := fun p => (recording P).WatchesAll p ∧ ∀ r ∈ p.runs, P r.label r.log)
    (fun p ev p' h _ hs => ?_) ⟨fun r hr => by simp [hruns] at hr, fun r hr => by simp [hruns] at hr⟩
  obtain ⟨hwatched, hall⟩ := h
  refine ⟨Monitor.watchesAll_step hwatched (fun l _ _ => hentry l) (hrely p ev) hs, fun r' hr' => ?_⟩
  obtain ⟨j, hj⟩ := List.getElem?_of_mem hr'
  rcases step_run hs hj with ⟨hold, -⟩ | ⟨l, -, -, rfl⟩ | ⟨r, ds, hlive, hgoes, hadds⟩
  · exact hall r' (List.mem_of_getElem? hold)
  · exact hnil l
  have hr := hall r (Monitor.mem_of_live hlive)
  have hstmt : ∀ {nm w}, executes ev = some j → Executes p p' r nm w →
      P r.label (r.log ++ [.stmt nm w p.store p'.store]) := by
    intro nm w hev hex
    have hguar := Monitor.guar_of_executes hwatched (hrely p ev) hlive hev hex
    rw [recording_at] at hguar
    exact hguar
  rw [hgoes.label, hgoes.log]
  cases hadds with
  | stmt nm w hev hex => exact hstmt hev hex
  | lost nm w e hev hex =>
    have hlost := hcame _ _ (.failed nm e) rfl (hstmt hev hex)
    rwa [List.append_assoc] at hlost
  | failed hstore nm e => exact hcame _ _ _ rfl hr
  | asked hstore q k hp ha =>
    have hquery := hwatched.query hlive hp ha
    rw [recording_at] at hquery
    exact hquery
  | answered hstore q k hp a => exact hcame _ _ _ rfl hr
  | nothing hstore => rwa [List.append_nil]

/-- A program of which nothing is asked. -/
lemma records_any {l : L} {log : List (Did σ)} (h : ∀ ds, P l ds) (p : Prog σ α) :
    Obeys (recording P) (fun _ _ => True) p (l, log) := by
  have hlabel : ∀ g : (recording P).State, g.1 = l → ∀ ds, P g.1 ds := fun g hg ds => by
    rw [hg]
    exact h ds
  refine (obeys_of_spares (M := recording P) (I := fun g => g.1 = l) (Prog.spares_any p)
    (fun g nm w s s' hg _ _ => ⟨hlabel g hg _, hg⟩) (fun g nm e hg _ => hg)
    (fun g q hg _ => ⟨hlabel g hg _, hg⟩) (fun g q a hg _ => hg) rfl).mono fun _ _ _ => trivial

/-! ### What a run that returns has done -/

/-- The run has come to its end, without an error. -/
def Run.returned (r : Run σ L) : Bool := match r.prog with
  | .ret () => true
  | _ => false

lemma Run.prog_of_returned {r : Run σ L} (h : r.returned = true) : r.prog = .ret () := by
  unfold Run.returned at h
  split at h
  · assumption
  · cases h

/-- Remembers everything; besides leaving logs in `P`, a run that returns has to have done what `Q` says. -/
def reporting (P Q : L → List (Did σ) → Prop) : Monitor σ L where
  State := L × List (Did σ)
  init l _ := (l, [])
  next g d := (g.1, g.2 ++ [d])
  rely _ _ _ := True
  guar g nm w s s' := P g.1 (g.2 ++ [.stmt nm w s s'])
  query g q := P g.1 (g.2 ++ [.asked q])
  post g r := r = .ok () → Q g.1 g.2

variable {Q : L → List (Did σ) → Prop}

lemma reporting_at (r : Run σ L) : (reporting P Q).at_ r = (r.label, r.log) := by
  refine Monitor.at_log (M := reporting P Q) (P := fun g ds => g = (r.label, ds)) r rfl fun g ds d hg => ?_
  rw [hg]
  rfl

lemma records_of_reports {R : L × List (Did σ) → Except σ.Err α → Prop} {p : Prog σ α} {g : L × List (Did σ)}
    (h : Obeys (reporting P Q) R p g) : Obeys (recording P) (fun _ _ => True) p g := by
  induction p generalizing g with
  | ret a => trivial
  | raise e => trivial
  | stmt nm eff k ih =>
    refine ⟨fun w s hr => ?_, fun e => ih _ (h.2 e)⟩
    obtain ⟨hguar, hok, hlost⟩ := h.1 w s hr
    exact ⟨hguar, ih _ hok, fun e => ih _ (hlost e)⟩
  | ask q k ih => exact ⟨h.1, fun a => ih a (h.2 a)⟩

/-- **What every program that returns has done**, every run that returned has done. -/
theorem reported {env : Outside σ L X V} {ok : Pool σ L X → Event σ L V → Prop} {p₀ p : Pool σ L X}
    (hentry : ∀ l, Obeys (reporting P Q) (reporting P Q).post (env.entry l) (l, [])) (hruns : p₀.runs = [])
    (hreach : Reach env ok p₀ p) : ∀ r ∈ p.runs, r.prog = .ret () → Q r.label r.log := by
  have hrely : ∀ p (ev : Event σ L V), (reporting P Q).Relies (X := X) p ev := by
    intro p ev
    cases ev <;> simp [Monitor.Relies, reporting]
  have hwatched : (reporting P Q).WatchesAll p :=
    hreach.keeps (P := (reporting P Q).WatchesAll)
      (fun p ev p' h _ hs => Monitor.watchesAll_step h (fun l _ _ => hentry l) (hrely p ev) hs)
      fun r hr => by simp [hruns] at hr
  intro r hr hret
  have hpost := (hwatched r hr).of_ret hret rfl
  rwa [reporting_at] at hpost

/-! ### What statements rest on -/

/-- Remembers everything; what a statement does has to be justified by what its run did before it. -/
def justifying (J : L → List (Did σ) → σ.Name → σ.Store → σ.Store → Prop) : Monitor σ L where
  State := L × List (Did σ)
  init l _ := (l, [])
  next g d := (g.1, g.2 ++ [d])
  rely _ _ _ := True
  guar g nm _ s s' := J g.1 g.2 nm s s'

section Justified

variable {J : L → List (Did σ) → σ.Name → σ.Store → σ.Store → Prop} {l : L} {log : List (Did σ)}

abbrev Justifies (J : L → List (Did σ) → σ.Name → σ.Store → σ.Store → Prop) (p : Prog σ α) (l : L)
    (log : List (Did σ)) : Prop :=
  Obeys (justifying J) (fun _ _ => True) p (l, log)

lemma justifying_at (r : Run σ L) : (justifying J).at_ r = (r.label, r.log) := by
  refine Monitor.at_log (M := justifying J) (P := fun g ds => g = (r.label, ds)) r rfl fun g ds d hg => ?_
  rw [hg]
  rfl

/-- A program whose every statement is justified from the start, by what stays in the log. -/
lemma justifies_of_each {p : Prog σ α} (hmono : ∀ log' nm s s', log <+: log' → J l log nm s s' → J l log' nm s s')
    (hp : p.Each (J l log)) : Justifies J p l log :=
  obeys_of_each (M := justifying J) (I := fun g => g.1 = l ∧ log <+: g.2) hp
    (fun g nm w s s' hg _ hstmt => by
      obtain ⟨rfl, hpre⟩ := hg
      exact hmono _ nm s s' hpre hstmt)
    (fun _ _ => trivial) (fun g d hg => ⟨hg.1, hg.2.trans (List.prefix_append _ _)⟩) ⟨rfl, List.prefix_rfl⟩

/-- A log only grows, and stays that of the run. -/
lemma justifies_grows {p : Prog σ α} (h : Justifies J p l log) :
    Obeys (justifying J) (fun g _ => g.1 = l ∧ log <+: g.2) p (l, log) := by
  induction p generalizing log with
  | ret a => exact ⟨rfl, List.prefix_rfl⟩
  | raise e => exact ⟨rfl, List.prefix_rfl⟩
  | stmt nm eff k ih =>
    have hlater : ∀ {r ds}, Justifies J (k r) l (log ++ ds) →
        Obeys (justifying J) (fun g _ => g.1 = l ∧ log <+: g.2) (k r) (l, log ++ ds) := fun h =>
      (ih _ h).mono fun _ _ hg => ⟨hg.1, (List.prefix_append _ _).trans hg.2⟩
    refine ⟨fun w s hr => ?_, fun e => hlater (h.2 e)⟩
    obtain ⟨hguar, hok, hlost⟩ := h.1 w s hr
    refine ⟨hguar, hlater hok, fun e => ?_⟩
    have hlost := hlost e
    simp only [justifying, List.append_assoc] at hlost ⊢
    exact hlater hlost
  | ask q k ih =>
    refine ⟨h.1, fun a => ?_⟩
    have hanswered := h.2 a
    simp only [justifying, List.append_assoc] at hanswered ⊢
    exact (ih a hanswered).mono fun _ _ hg => ⟨hg.1, (List.prefix_append _ _).trans hg.2⟩

/-- One after the other: the second has all that the first did to rest on. -/
lemma justifies_then {p : Prog σ α} {k : α → Prog σ β} (h : Justifies J p l log)
    (hk : ∀ a log', log <+: log' → Justifies J (k a) l log') : Justifies J (p.bind k) l log := by
  refine obeys_bind.mpr ((justifies_grows h).mono fun g result hg => ?_)
  obtain ⟨l', log'⟩ := g
  obtain ⟨rfl, hpre⟩ := hg
  rcases result with e | a
  · trivial
  · exact hk a log' hpre

/-- What is read first may rest on nothing; what follows may rest on it. -/
lemma justifies_query {nm : σ.Name} {f : σ.Store → α} {k : α → Prog σ β} (h : ∀ s, J l log nm s s)
    (hk : ∀ w s, Justifies J (k (f s)) l (log ++ [.stmt nm w s s])) :
    Justifies J ((Prog.query nm f).bind k) l log :=
  obeys_bind.mpr (obeys_query (fun w s _ => ⟨h s, hk w s⟩) fun _ _ => trivial)

/-- What follows an answer may rest on it. -/
lemma justifies_request {q : σ.Ask} {k : σ.Ans q → Prog σ β}
    (hk : ∀ a, Justifies J (k a) l (log ++ [.asked q] ++ [.answered q (.ok a)])) :
    Justifies J ((Prog.request q).bind k) l log := by
  refine obeys_bind.mpr (obeys_request trivial fun answer => ?_)
  rcases answer with e | a
  · trivial
  · exact hk a

variable {env : Outside σ L X V} {ok : Pool σ L X → Event σ L V → Prop} {p p' p₀ : Pool σ L X} {ev : Event σ L V}

lemma justifying_relies : (justifying J).Relies p ev := by
  cases ev <;> simp [Monitor.Relies, justifying]

/-- What a statement of a run does to the store, the run can justify. -/
lemma justified_step (h : (justifying J).WatchesAll p) (hs : step env p ev = some p') :
    (∃ r ∈ p.runs, ∃ nm, J r.label r.log nm p.store p'.store) ∨ p'.store = p.store ∨
      ∃ v, ev = .move v ∧ env.move v p.store p.out = some (p'.store, p'.out) := by
  rcases h.step_store justifying_relies hs with ⟨i, r, nm, w, -, hex⟩ | ⟨-, hstore⟩ | hmove
  · have hguar := hex.guar
    rw [justifying_at] at hguar
    exact .inl ⟨r, Monitor.mem_of_live hex.live, nm, hguar⟩
  · exact .inr (.inl hstore)
  · exact .inr (.inr hmove)

/-- **Where every program justifies its statements**, every statement of every run is justified. -/
theorem justified (hentry : ∀ l, Justifies J (env.entry l) l []) (hruns : p₀.runs = [])
    (hreach : Reach env ok p₀ p) : (justifying J).WatchesAll p ∧ ∀ r ∈ p.runs, (justifying J).Kept r := by
  have hnone : ∀ r, r ∉ p₀.runs := by simp [hruns]
  refine hreach.keeps (P := fun p => (justifying J).WatchesAll p ∧ ∀ r ∈ p.runs, (justifying J).Kept r)
    (fun p ev p' h _ hs => ?_) ⟨fun r hr => absurd hr (hnone r), fun r hr => absurd hr (hnone r)⟩
  exact ⟨Monitor.watchesAll_step h.1 (fun l _ _ => hentry l) justifying_relies hs,
    Monitor.kept_step h.1 justifying_relies h.2 hs⟩

/-- A statement in the log of a run had what justifies it before it. -/
lemma justified_by {r : Run σ L} {nm : σ.Name} {w : σ.Input} {s s' : σ.Store} (h : (justifying J).Kept r)
    (hd : .stmt nm w s s' ∈ r.log) : ∃ before, before <+: r.log ∧ J r.label before nm s s' := by
  obtain ⟨before, after, hlog⟩ := List.append_of_mem hd
  have hguar := h before nm w s s' (by rw [hlog]; exact ⟨after, by simp⟩)
  have hstate : before.foldl (justifying J).next (r.label, []) = (r.label, before) := by
    have hat := justifying_at (J := J) { r with log := before }
    exact hat
  refine ⟨before, by rw [hlog]; exact List.prefix_append _ _, ?_⟩
  have heq : (justifying J).init r.label r.born = (r.label, []) := rfl
  rw [heq, hstate] at hguar
  exact hguar

end Justified

end Splitcore.Interleaving
