import Mathlib.Data.List.Forall2
import Splitcore.Interleaving.Complete

/-!
Programs that differ only in what they ask.

Given the same answers they do the same, whatever others do in between: what distinguishes their questions is
known to those who are asked, and to nobody else.
-/

namespace Splitcore.Interleaving

variable {σ : Sig} {L X V α β : Type} {Like : σ.Ask → σ.Ask → Prop}

/-! ### Programs -/

/-- Where one asks, the other asks something like it, and goes on alike from the same answer. -/
inductive Alike (Like : σ.Ask → σ.Ask → Prop) : Prog σ α → Prog σ α → Prop
  | ret (a : α) : Alike Like (.ret a) (.ret a)
  | raise (e : σ.Err) : Alike Like (.raise e) (.raise e)
  | stmt (nm : σ.Name) (eff : σ.Input → σ.Store → σ.Store)
      {k k' : Except σ.Err (σ.Input × σ.Store) → Prog σ α} (h : ∀ r, Alike Like (k r) (k' r)) :
      Alike Like (.stmt nm eff k) (.stmt nm eff k')
  | ask {q q' : σ.Ask} {k : Except σ.Err (σ.Ans q) → Prog σ α} {k' : Except σ.Err (σ.Ans q') → Prog σ α}
      (hlike : Like q q') (h : ∀ a a', HEq a a' → Alike Like (k a) (k' a')) : Alike Like (.ask q k) (.ask q' k')

lemma alike_refl (hrefl : ∀ q, Like q q) (p : Prog σ α) : Alike Like p p := by
  induction p with
  | ret a => exact .ret a
  | raise e => exact .raise e
  | stmt nm eff k ih => exact .stmt nm eff ih
  | ask q k ih =>
    refine .ask (hrefl q) fun a a' ha => ?_
    rw [eq_of_heq ha]
    exact ih a'

lemma alike_bind {p p' : Prog σ α} {f f' : α → Prog σ β} (hp : Alike Like p p')
    (hf : ∀ a, Alike Like (f a) (f' a)) : Alike Like (p.bind f) (p'.bind f') := by
  induction hp with
  | ret a => exact hf a
  | raise e => exact .raise e
  | stmt nm eff _ ih => exact .stmt nm eff ih
  | ask hlike _ ih => exact .ask hlike ih

/-! ### What they do -/

/-- The same was done, up to what was asked. -/
inductive LooksLike (Like : σ.Ask → σ.Ask → Prop) : Did σ → Did σ → Prop
  | same (d : Did σ) : LooksLike Like d d
  | asked {q q' : σ.Ask} (hlike : Like q q') : LooksLike Like (.asked q) (.asked q')
  | answered {q q' : σ.Ask} {a : Except σ.Err (σ.Ans q)} {a' : Except σ.Err (σ.Ans q')} (hlike : Like q q')
      (ha : HEq a a') : LooksLike Like (.answered q a) (.answered q' a')

/-- What one answer is worth as another: questions that are alike are answered in one type. -/
lemma exists_answer (hans : ∀ q q', Like q q' → σ.Ans q = σ.Ans q') {q q' : σ.Ask} (hlike : Like q q')
    (a : Except σ.Err (σ.Ans q)) : ∃ a' : Except σ.Err (σ.Ans q'), HEq a a' :=
  ⟨cast (congrArg (Except σ.Err) (hans q q' hlike)) a, (cast_heq _ a).symm⟩

/-- **A program alike comes to the same**, by doing what looks alike. -/
theorem Alike.ends {fault : σ.Err → Prop} {p p' : Prog σ α} {s s' : σ.Store} {ds : List (Did σ)}
    {res : Except σ.Err α} (hans : ∀ q q', Like q q' → σ.Ans q = σ.Ans q') (h : Alike Like p p')
    (hends : Ends fault p s ds res s') :
    ∃ ds', Ends fault p' s ds' res s' ∧ List.Forall₂ (LooksLike Like) ds ds' := by
  induction h generalizing s ds with
  | ret a =>
    obtain ⟨rfl, rfl, rfl⟩ := ends_ret hends
    exact ⟨[], .ret a _, .nil⟩
  | raise e =>
    obtain ⟨rfl, rfl, rfl⟩ := ends_raise hends
    exact ⟨[], .raise e _, .nil⟩
  | stmt nm eff _ ih =>
    cases hends with
    | stmt w hrest =>
      obtain ⟨ds', hends', halike⟩ := ih _ hrest
      exact ⟨_, .stmt w hends', .cons (.same _) halike⟩
    | failed he hrest =>
      obtain ⟨ds', hends', halike⟩ := ih _ hrest
      exact ⟨_, .failed he hends', .cons (.same _) halike⟩
  | ask hlike _ ih =>
    cases hends with
    | ask a hrest =>
      obtain ⟨a', ha⟩ := exists_answer hans hlike a
      obtain ⟨ds', hends', halike⟩ := ih a a' ha hrest
      exact ⟨_, .ask a' hends', .cons (.asked hlike) (.cons (.answered hlike ha) halike)⟩

/-! ### Runs side by side -/

/-- The world takes runs and questions for the same that are alike. -/
structure TakesAlike (Like : σ.Ask → σ.Ask → Prop) (Same : L → L → Prop) (env : Outside σ L X V) : Prop where
  entry : ∀ l l', Same l l' → Alike Like (env.entry l) (env.entry l')
  start : ∀ l l', Same l l' → env.start l' = env.start l
  send : ∀ l l' q q', Same l l' → Like q q' → env.send l' q' = env.send l q
  answers : ∀ x q q' (a : Except σ.Err (σ.Ans q)) (a' : Except σ.Err (σ.Ans q')), Like q q' → HEq a a' →
    env.answers x q' a' = env.answers x q a
  finish : ∀ l l', Same l l' → env.finish l' = env.finish l
  crash : ∀ l l', Same l l' → env.crash l' = env.crash l

structure RunsAlike (Like : σ.Ask → σ.Ask → Prop) (Same : L → L → Prop) (r r' : Run σ L) : Prop where
  label : Same r.label r'.label
  born : r'.born = r.born
  prog : Alike Like r.prog r'.prog
  asked : r'.asked = r.asked
  log : List.Forall₂ (LooksLike Like) r.log r'.log
  alive : r'.alive = r.alive

structure PoolsAlike (Like : σ.Ask → σ.Ask → Prop) (Same : L → L → Prop) (p p' : Pool σ L X) : Prop where
  store : p'.store = p.store
  out : p'.out = p.out
  runs : List.Forall₂ (RunsAlike Like Same) p.runs p'.runs

/-- What was started, in turn. -/
def started (evs : List (Event σ L V)) : List L := evs.filterMap fun
  | .start l => some l
  | _ => none

variable {Same : L → L → Prop} {env : Outside σ L X V} {p p' q q' : Pool σ L X} {r r' : Run σ L} {i : ℕ}
  {ev : Event σ L V}

lemma forall₂_set {γ δ : Type} {R : γ → δ → Prop} {l : List γ} {l' : List δ} {a : γ} {b : δ}
    (h : List.Forall₂ R l l') (hab : R a b) (i : ℕ) : List.Forall₂ R (l.set i a) (l'.set i b) := by
  induction h generalizing i with
  | nil => exact .nil
  | cons hR hrest ih =>
    cases i with
    | zero => exact .cons hab hrest
    | succ i => exact .cons hR (ih i)

lemma forall₂_getElem? {γ δ : Type} {R : γ → δ → Prop} {l : List γ} {l' : List δ} {a : γ}
    (h : List.Forall₂ R l l') {i : ℕ} (ha : l[i]? = some a) : ∃ b, l'[i]? = some b ∧ R a b := by
  induction h generalizing i with
  | nil => cases ha
  | cons hR _ ih =>
    cases i with
    | zero => cases ha; exact ⟨_, rfl, hR⟩
    | succ i => exact ih ha

lemma PoolsAlike.live (h : PoolsAlike Like Same p q) (hr : p.live i = some r) :
    ∃ r', q.live i = some r' ∧ RunsAlike Like Same r r' := by
  obtain ⟨hget, halive⟩ := live_eq_some.mp hr
  obtain ⟨r', hget', hruns⟩ := forall₂_getElem? h.runs hget
  exact ⟨r', live_eq_some.mpr ⟨hget', hruns.alive.trans halive⟩, hruns⟩

lemma RunsAlike.goes {k k' : Prog σ Unit} {ds ds' : List (Did σ)} (h : RunsAlike Like Same r r')
    (hk : Alike Like k k') (hds : List.Forall₂ (LooksLike Like) ds ds') :
    RunsAlike Like Same (r.goes k ds) (r'.goes k' ds') :=
  ⟨h.label, h.born, hk, rfl, List.rel_append h.log hds, h.alive⟩

lemma RunsAlike.gone (h : RunsAlike Like Same r r') : RunsAlike Like Same r.gone r'.gone :=
  ⟨h.label, h.born, h.prog, h.asked, h.log, rfl⟩

/-- The same statement is next. -/
lemma RunsAlike.stmt {nm : σ.Name} {eff : σ.Input → σ.Store → σ.Store}
    {k : Except σ.Err (σ.Input × σ.Store) → Prog σ Unit} (h : RunsAlike Like Same r r') (hp : r.prog = .stmt nm eff k) :
    ∃ k', r'.prog = .stmt nm eff k' ∧ ∀ a, Alike Like (k a) (k' a) := by
  have halike := h.prog
  rw [hp] at halike
  generalize hp' : r'.prog = p' at halike
  cases halike with
  | stmt nm eff h => exact ⟨_, rfl, h⟩

lemma RunsAlike.ask {a : σ.Ask} {k : Except σ.Err (σ.Ans a) → Prog σ Unit} (h : RunsAlike Like Same r r')
    (hp : r.prog = .ask a k) : ∃ a' k', r'.prog = .ask a' k' ∧ Like a a' ∧
      ∀ b b', HEq b b' → Alike Like (k b) (k' b') := by
  have halike := h.prog
  rw [hp] at halike
  generalize hp' : r'.prog = p' at halike
  cases halike with
  | ask hlike h => exact ⟨_, _, rfl, hlike, h⟩

/-- **What one pool does, a pool alike can do**, whatever it starts in place of what is started. -/
theorem alike_step (hans : ∀ q q', Like q q' → σ.Ans q = σ.Ans q') (hworld : TakesAlike Like Same env)
    (h : PoolsAlike Like Same p q) (hs : step env p ev = some p') (ls : List L)
    (hstarted : List.Forall₂ Same (started [ev]) ls) :
    ∃ ev' q', started [ev'] = ls ∧ step env q ev' = some q' ∧ PoolsAlike Like Same p' q' := by
  have hput : ∀ {i : ℕ} {r r' : Run σ L}, RunsAlike Like Same r r' →
      List.Forall₂ (RunsAlike Like Same) (p.runs.set i r) (q.runs.set i r') := fun hr => forall₂_set h.runs hr _
  cases ev with
  | start l =>
    obtain ⟨x, hx, rfl⟩ := step_start hs
    cases hstarted with
    | cons hsame hnil =>
      cases hnil
      refine ⟨.start _, { q with out := x, runs := q.runs ++ [.new _ q.store (env.entry _)] }, rfl, ?_, h.store, rfl,
        List.rel_append h.runs (.cons ⟨hsame, h.store, hworld.entry _ _ hsame, rfl, .nil, rfl⟩ .nil)⟩
      simp only [step, hworld.start _ _ hsame, h.store, h.out, hx, Option.map_some]
  | exec i w =>
    cases hstarted
    obtain ⟨r, nm, eff, k, hr, hp, rfl⟩ := step_exec hs
    obtain ⟨r', hr', halike⟩ := h.live hr
    obtain ⟨k', hp', hk⟩ := halike.stmt hp
    refine ⟨.exec i w, { q.put i (r'.goes (k' (.ok (w, q.store))) [.stmt nm w q.store (eff w q.store)]) with
      store := eff w q.store }, rfl, ?_, by rw [h.store], h.out, hput ?_⟩
    · simp only [step, hr', hp', Option.bind_some]
    · rw [h.store]
      exact halike.goes (hk _) (.cons (.same _) .nil)
  | lost i w e =>
    cases hstarted
    obtain ⟨r, nm, eff, k, hr, hp, rfl⟩ := step_lost hs
    obtain ⟨r', hr', halike⟩ := h.live hr
    obtain ⟨k', hp', hk⟩ := halike.stmt hp
    refine ⟨.lost i w e, { q.put i
      (r'.goes (k' (.error e)) [.stmt nm w q.store (eff w q.store), .failed nm e]) with
      store := eff w q.store }, rfl, ?_, by rw [h.store], h.out, hput ?_⟩
    · simp only [step, hr', hp', Option.bind_some]
    · rw [h.store]
      exact halike.goes (hk _) (.cons (.same _) (.cons (.same _) .nil))
  | fail i e =>
    cases hstarted
    obtain ⟨r, nm, eff, k, hr, hp, rfl⟩ := step_fail hs
    obtain ⟨r', hr', halike⟩ := h.live hr
    obtain ⟨k', hp', hk⟩ := halike.stmt hp
    refine ⟨.fail i e, q.put i (r'.goes (k' (.error e)) [.failed nm e]), rfl, ?_, h.store, h.out,
      hput (halike.goes (hk _) (.cons (.same _) .nil))⟩
    simp only [step, hr', hp', Option.bind_some]
  | send i =>
    cases hstarted
    obtain ⟨r, a, k, hr, hp, hasked, rfl⟩ := step_send hs
    obtain ⟨r', hr', halike⟩ := h.live hr
    obtain ⟨a', k', hp', hlike, hk⟩ := halike.ask hp
    refine ⟨.send i, { q.put i (r'.sent a') with out := env.send r'.label a' q.out }, rfl, ?_, h.store, ?_,
      hput ⟨halike.label, halike.born, halike.prog, rfl, List.rel_append halike.log (.cons (.asked hlike) .nil),
        halike.alive⟩⟩
    · simp only [step, hr', hp', halike.asked, hasked, Option.bind_some]
    · show env.send r'.label a' q.out = env.send r.label a p.out
      rw [hworld.send _ _ _ _ halike.label hlike, h.out]
  | answer i o =>
    cases hstarted
    obtain ⟨r, a, k, hr, hp, hasked, hallowed, rfl⟩ := step_answer hs
    obtain ⟨r', hr', halike⟩ := h.live hr
    obtain ⟨a', k', hp', hlike, hk⟩ := halike.ask hp
    obtain ⟨b', hb⟩ := exists_answer hans hlike (o a)
    classical
    refine ⟨.answer i (Function.update o a' b'), q.put i (r'.goes (k' b') [.answered a' b']), rfl, ?_, h.store, h.out,
      hput (halike.goes (hk _ _ hb) (.cons (.answered hlike hb) .nil))⟩
    have hallowed' : env.answers q.out a' b' = true := by
      rw [hworld.answers _ _ _ _ _ hlike hb, h.out]
      exact hallowed
    simp only [step, hr', hp', halike.asked, hasked, Option.bind_some, Function.update_self, hallowed', if_true]
  | finish i =>
    cases hstarted
    obtain ⟨r, res, hr, hend, rfl⟩ := step_finish hs
    obtain ⟨r', hr', halike⟩ := h.live hr
    refine ⟨.finish i, { q.put i r'.gone with out := env.finish r'.label res q.out }, rfl, ?_, h.store, ?_,
      hput halike.gone⟩
    · have hprog := halike.prog
      generalize hp' : r'.prog = c at hprog
      rcases hend with ⟨hp, rfl⟩ | ⟨e, hp, rfl⟩ <;> rw [hp] at hprog <;> cases hprog <;>
        simp only [step, hr', hp', Option.bind_some]
    · show env.finish r'.label res q.out = env.finish r.label res p.out
      rw [hworld.finish _ _ halike.label, h.out]
  | crash i =>
    cases hstarted
    obtain ⟨r, hr, rfl⟩ := step_crash hs
    obtain ⟨r', hr', halike⟩ := h.live hr
    refine ⟨.crash i, { q.put i r'.gone with out := env.crash r'.label q.out }, rfl, ?_, h.store, ?_, hput halike.gone⟩
    · simp only [step, hr', Option.map_some]
    · show env.crash r'.label q.out = env.crash r.label p.out
      rw [hworld.crash _ _ halike.label, h.out]
  | move v =>
    cases hstarted
    obtain ⟨s, x, hmove, rfl⟩ := step_move hs
    refine ⟨.move v, { q with store := s, out := x }, rfl, ?_, rfl, rfl, h.runs⟩
    simp only [step, h.store, h.out, hmove, Option.map_some]

lemma started_cons (ev : Event σ L V) (evs : List (Event σ L V)) : started (ev :: evs) = started [ev] ++ started evs := by
  unfold started
  rw [← List.filterMap_append]
  rfl

/-- **What distinguishes programs alike never shows**: for every run there is one of any others that are alike,
to the same store. -/
theorem alike_run (hans : ∀ q q', Like q q' → σ.Ans q = σ.Ans q') (hworld : TakesAlike Like Same env)
    {evs : List (Event σ L V)} {ls : List L} (h : PoolsAlike Like Same p q) (hrun : run env p evs = some p')
    (hstarted : List.Forall₂ Same (started evs) ls) :
    ∃ evs' q', started evs' = ls ∧ run env q evs' = some q' ∧ PoolsAlike Like Same p' q' := by
  induction evs generalizing p q ls with
  | nil =>
    cases hstarted
    cases hrun
    exact ⟨[], q, rfl, rfl, h⟩
  | cons ev evs ih =>
    rw [started_cons] at hstarted
    obtain ⟨p₁, hs, hrest⟩ := Option.bind_eq_some_iff.mp hrun
    have hfirst := (List.forall₂_take_append ls _ _ hstarted.flip).flip
    have hothers := (List.forall₂_drop_append ls _ _ hstarted.flip).flip
    obtain ⟨ev', q₁, hev, hs', halike⟩ := alike_step hans hworld h hs _ hfirst
    obtain ⟨evs', q', hevs, hrun', hend⟩ := ih halike hrest hothers
    refine ⟨ev' :: evs', q', ?_, Option.bind_eq_some_iff.mpr ⟨q₁, hs', hrun'⟩, hend⟩
    rw [started_cons, hev, hevs, List.take_append_drop]

end Splitcore.Interleaving
