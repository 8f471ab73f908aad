import Splitcore.Redis.Service

/-!
The connection while Redis is not there: attempts go on, but not for ever.
-/

namespace Splitcore.Redis

open Machines

/-! ### What is claimed -/

/-- What the process does by itself for a connection. -/
def own : Event → Bool
  | .timeout _ _ | .settles _ _ | .resumes _ => true
  | _ => false

/-- Without news of a connection, and without having got one. -/
def Unconnected (p : Process) (event : Event) (p' : Process) : Prop :=
  Next p event p' ∧ event ≠ .client .connect ∧ p'.service.isConnected = false

/-- Something is going to be done about the connection. -/
def Trying (p : Process) : Prop := p.service.reconnectTimer ≠ none ∨ p.attempts ≠ []

/-- Until the client reports a connection, what the process does by itself comes to an end. From when the client
has ended until there is a connection, it comes to one only after as many attempts as there may be. -/
structure KeepsTrying (p : Process) : Prop where
  bounded : ∀ es p', Runs Next p es p' → .client .connect ∉ es → (∀ status, .onModuleInit status ∉ es) →
    es.countP own ≤ 5 * maxReconnectAttempts + 4 + 3 * p.attempts.length
  stubborn : ∀ p₁ es p', Next p (.client .ended) p₁ → Runs Unconnected p₁ es p' →
    p'.service.destroyed = true ∨ Trying p' ∨ p'.service.reconnectAttempts = maxReconnectAttempts

variable {p p' : Process} {event : Event} {es : List Event} {status : ClientStatus} {i : ℕ} {ok : Bool}

/-! ### What is still to be done -/

/-- It will begin another attempt. -/
def Timeout.reconnects (timer : Timeout) : Bool := timer.callback = .reconnect

/-- Each attempt that may still be scheduled is a timeout, and a timeout is an attempt. -/
def potential (p : Process) : ℕ :=
  5 * (maxReconnectAttempts - p.service.reconnectAttempts) + 4 * p.timeouts.countP Timeout.reconnects + p.weight

/-- A timeout that rejects does not count. -/
lemma countP_setTimeout : (p.setTimeout .reject).timeouts.countP Timeout.reconnects =
    p.timeouts.countP Timeout.reconnects := by
  simp [Process.setTimeout, Process.newTimeout, Timeout.reconnects, List.countP_append]

lemma countP_clearTimeout (timer : Timeout) : (p.clearTimeout timer).timeouts.countP Timeout.reconnects ≤
    p.timeouts.countP Timeout.reconnects :=
  List.erase_sublist.countP_le

lemma potential_le_of {n : ℕ} (hattempts : p'.service.reconnectAttempts = p.service.reconnectAttempts)
    (htimeouts : p'.timeouts.countP Timeout.reconnects ≤ p.timeouts.countP Timeout.reconnects)
    (hweight : n + p'.weight ≤ p.weight) : n + potential p' ≤ potential p := by
  unfold potential
  rw [hattempts]
  omega

lemma potential_scheduleReconnect : potential (scheduleReconnect p) ≤ potential p := by
  rcases scheduleReconnect_cases p with ⟨heq, -⟩ | ⟨heq, -, -, -, hlt⟩
  · exact Nat.le_of_eq (congrArg potential heq)
  have hcount : p.schedule.timeouts.countP Timeout.reconnects = p.timeouts.countP Timeout.reconnects + 1 := by
    simp [Process.schedule, Process.setTimeout, Process.newTimeout, Timeout.reconnects, List.countP_append]
  have hattempts : p.schedule.service.reconnectAttempts = p.service.reconnectAttempts + 1 := rfl
  have hweight : p.schedule.weight = p.weight := rfl
  rw [heq, potential, hcount, hattempts, hweight, potential]
  omega

lemma potential_begin (attempt : Attempt) : potential (p.begin attempt) = potential p + attempt.weight := by
  have hservice : (p.begin attempt).service = p.service := rfl
  have htimeouts : (p.begin attempt).timeouts = p.timeouts := rfl
  rw [potential, hservice, htimeouts, weight_begin, potential]
  omega

lemma potential_tryConnect : potential (tryConnect status p) ≤ potential p + 3 := by
  rcases tryConnect_cases status p with heq | heq | ⟨heq, -⟩
  · rw [heq, potential_begin]
    exact Nat.add_le_add_left (weight_le _) _
  · rw [heq, potential_begin]
    exact Nat.add_le_add_left (weight_le _) _
  · rw [heq, potential_begin]
    refine Nat.add_le_add ?_ (weight_le _)
    have hless : 0 + potential ({ p with connects := p.connects + 1 }.setTimeout .reject) ≤ potential p :=
      potential_le_of rfl (Nat.le_of_eq countP_setTimeout) (Nat.le_of_eq (Nat.zero_add _))
    rwa [Nat.zero_add] at hless

lemma potential_settle (h : settle i ok p = some p') : 1 + potential p' ≤ potential p := by
  have hweight := weight_settle h
  obtain ⟨attempt, timer, -, -, ⟨isConnected, rfl⟩ | ⟨-, rfl⟩⟩ := settle_cases h
  · exact potential_le_of rfl (countP_clearTimeout timer) hweight
  · exact potential_le_of rfl (Nat.le_trans (Nat.le_of_eq countP_setTimeout) (countP_clearTimeout timer)) hweight

lemma potential_close : potential (close status p) ≤ potential p := by
  unfold close
  split
  · have hless : 0 + potential { p.setTimeout .reject with quits := p.quits ++ [p.newTimeout .reject] } ≤ potential p :=
      potential_le_of rfl (Nat.le_of_eq countP_setTimeout) (Nat.le_of_eq (Nat.zero_add _))
    rwa [Nat.zero_add] at hless
  · exact Nat.le_refl _

lemma potential_onModuleDestroy : potential (onModuleDestroy status p) ≤ potential p := by
  unfold onModuleDestroy
  dsimp only
  split
  · exact Nat.le_refl _
  refine Nat.le_trans potential_close ?_
  split
  · exact Nat.le_refl _
  · rename_i timer _
    have hcount := countP_clearTimeout (p := p) timer
    simp only [potential, Process.unschedule, Process.clearTimeout, Process.weight] at hcount ⊢
    omega

lemma potential_timeout {id : ℕ} (hid : ⟨id, .reconnect⟩ ∈ p.timeouts) :
    4 + potential (p.unschedule ⟨id, .reconnect⟩) ≤ potential p := by
  have hcount := (List.perm_cons_erase hid).countP_eq Timeout.reconnects
  rw [List.countP_cons_of_pos rfl] at hcount
  simp only [potential, Process.unschedule, Process.clearTimeout, Process.weight]
  omega

/-- Nobody reports a connection, and the server does not start. -/
def Left (p : Process) (event : Event) (p' : Process) : Prop :=
  Next p event p' ∧ event ≠ .client .connect ∧ ∀ status, event ≠ .onModuleInit status

theorem potential_step (h : Left p event p') : (if own event then 1 else 0) + potential p' ≤ potential p := by
  obtain ⟨hs, hconnect, hinit⟩ := h
  cases event with
  | onModuleInit status => exact absurd rfl (hinit status)
  | onModuleDestroy status =>
    simp only [Next, step, Option.some.injEq] at hs
    subst hs
    simp only [own, Bool.false_eq_true, if_false, Nat.zero_add]
    exact potential_onModuleDestroy
  | client event =>
    simp only [Next, step, Option.ite_none_left_eq_some, Option.some.injEq] at hs
    obtain ⟨-, rfl⟩ := hs
    simp only [own, Bool.false_eq_true, if_false, Nat.zero_add]
    cases event with
    | connect => exact absurd rfl hconnect
    | ready | error | close => exact Nat.le_refl _
    | ended =>
      unfold onClient
      dsimp only
      split
      · exact Nat.le_trans potential_scheduleReconnect (Nat.le_refl _)
      · exact Nat.le_refl _
  | timeout id status =>
    simp only [Next, step, Option.ite_none_right_eq_some, Option.some.injEq] at hs
    obtain ⟨hid, rfl⟩ := hs
    have htimeout := potential_timeout hid
    have htry : potential (tryConnect status (p.unschedule ⟨id, .reconnect⟩)) ≤ _ := potential_tryConnect
    simp only [own, if_true]
    omega
  | settles i ok => exact potential_settle hs
  | resumes i =>
    simp only [Next, step, Option.ite_none_right_eq_some, Option.some.injEq] at hs
    obtain ⟨hat, rfl⟩ := hs
    have hrest : 1 + potential { p with attempts := p.attempts.eraseIdx i } ≤ potential p :=
      potential_le_of rfl (Nat.le_refl _) (Nat.le_of_eq (weight_of_perm (perm_eraseIdx hat)).symm)
    refine Nat.le_trans (Nat.add_le_add_left ?_ _) hrest
    unfold resume
    split
    · exact potential_scheduleReconnect
    · exact Nat.le_refl _
  | quits i =>
    obtain ⟨timer, -, rfl⟩ := quitted_cases hs
    exact potential_le_of rfl (countP_clearTimeout timer) (Nat.le_of_eq (Nat.zero_add _))

lemma potential_le (h : Known p) :
    potential p ≤ 5 * maxReconnectAttempts + 4 + 3 * p.attempts.length := by
  have hawaited : p.awaited.countP Timeout.reconnects = 0 := by
    refine List.countP_eq_zero.mpr fun timer htimer => ?_
    simp [Timeout.reconnects, h.rejects timer htimer]
  have hone : p.service.reconnectTimer.toList.countP Timeout.reconnects ≤ 1 := by
    refine Nat.le_trans List.countP_le_length ?_
    cases p.service.reconnectTimer <;> simp
  have hcount := h.known.countP_eq Timeout.reconnects
  rw [List.countP_append, hawaited] at hcount
  have hweight := weight_le_length p
  unfold potential
  omega

/-! ### While there is no connection -/

/-- The service is destroyed, or something is going to be done, or it gave up. -/
def Cares (p : Process) : Prop :=
  p.service.destroyed = true ∨ Trying p ∨ maxReconnectAttempts ≤ p.service.reconnectAttempts

lemma cares_scheduleReconnect (henabled : p.service.enabled = true) : Cares (scheduleReconnect p) := by
  rcases scheduleReconnect_cases p with ⟨heq, hwhy⟩ | ⟨heq, -⟩
  · rw [heq]
    rcases hwhy with hdestroyed | hoff | htimer | hmax
    · exact .inl hdestroyed
    · exact absurd (hoff.symm.trans henabled) Bool.false_ne_true
    · exact .inr (.inl (.inl htimer))
    · exact .inr (.inr hmax)
  · rw [heq]
    exact .inr (.inl (.inl nofun))

lemma cares_tryConnect : Cares (tryConnect status p) := by
  rcases tryConnect_cases status p with heq | heq | ⟨heq, -⟩ <;> rw [heq] <;>
    exact .inr (.inl (.inr (by simp [Process.begin])))

lemma cares_ended (henabled : p.service.enabled = true) : Cares (onClient p .ended) := by
  unfold onClient
  dsimp only
  split
  · exact cares_scheduleReconnect henabled
  · rename_i hdestroyed
    exact .inl (by simpa using hdestroyed)

theorem cares_step (henabled : p.service.enabled = true) (h : Cares p) (hu : Unconnected p event p') : Cares p' := by
  obtain ⟨hs, hconnect, hunconnected⟩ := hu
  cases event with
  | onModuleInit status =>
    simp only [Next, step, henabled, Bool.true_eq_false, if_false, Option.some.injEq] at hs
    subst hs
    exact cares_tryConnect
  | onModuleDestroy status =>
    simp only [Next, step, Option.some.injEq] at hs
    subst hs
    exact .inl onModuleDestroy_destroys.destroyed
  | client event =>
    simp only [Next, step, Option.ite_none_left_eq_some, Option.some.injEq] at hs
    obtain ⟨-, rfl⟩ := hs
    cases event with
    | connect => exact absurd rfl hconnect
    | ready | error | close => exact h
    | ended => exact cares_ended henabled
  | timeout id status =>
    simp only [Next, step, Option.ite_none_right_eq_some, Option.some.injEq] at hs
    obtain ⟨-, rfl⟩ := hs
    exact cares_tryConnect
  | settles i ok =>
    obtain ⟨attempt, timer, hat, -, hcases⟩ := settle_cases hs
    have hsome : ∀ attempt', p.attempts.set i attempt' ≠ [] := fun attempt' => by
      have hne : p.attempts ≠ [] := List.ne_nil_of_mem (List.mem_of_getElem? hat)
      simpa using hne
    rcases hcases with ⟨isConnected, rfl⟩ | ⟨-, rfl⟩ <;> exact .inr (.inl (.inr (hsome _)))
  | resumes i =>
    simp only [Next, step, Option.ite_none_right_eq_some, Option.some.injEq] at hs
    obtain ⟨-, rfl⟩ := hs
    -- the caller finds no connection, and schedules another attempt
    unfold resume at hunconnected ⊢
    split
    · exact cares_scheduleReconnect henabled
    · rename_i hconnected
      rw [if_neg hconnected] at hunconnected
      simp only [Bool.not_eq_true', Bool.not_eq_false] at hconnected
      exact absurd (hunconnected.symm.trans hconnected) Bool.false_ne_true
  | quits i =>
    obtain ⟨timer, -, rfl⟩ := quitted_cases hs
    exact h

/-- **The service keeps trying**, and not for ever. -/
theorem keeps_trying (h : Reached p) : KeepsTrying p where
  bounded es p' hruns hconnect hinit := by
    have hleft : Runs Left p es p' := hruns.mono_mem fun q event q' he hs =>
      ⟨hs, fun heq => hconnect (heq ▸ he), fun status heq => hinit status (heq ▸ he)⟩
    have hpays : es.countP own + potential p' ≤ potential p := hleft.pays fun _ _ _ hs => potential_step hs
    have hle := potential_le (known_of_reached h)
    omega
  stubborn p₁ es p' hs hruns := by
    have hon : p.service.enabled = true ∧ p₁ = onClient p .ended := by
      simp only [Next, step, Option.ite_none_left_eq_some, Option.some.injEq, Bool.not_eq_false] at hs
      exact ⟨hs.1, hs.2.symm⟩
    have hstart : p₁.service.enabled = true ∧ Cares p₁ ∧ Known p₁ := by
      refine ⟨(enabled_step hs).trans hon.1, ?_, known_step (known_of_reached h) hs⟩
      rw [hon.2]
      exact cares_ended hon.1
    obtain ⟨-, hcares, hknown'⟩ := hruns.keeps (P := fun q => q.service.enabled = true ∧ Cares q ∧ Known q)
      (fun q event q' hq hu => ⟨(enabled_step hu.1).trans hq.1, cares_step hq.1 hq.2.1 hu, known_step hq.2.2 hu.1⟩)
      hstart
    rcases hcares with hdestroyed | htrying | hmax
    · exact .inl hdestroyed
    · exact .inr (.inl htrying)
    · exact .inr (.inr (Nat.le_antisymm hknown'.bounded hmax))

theorem keeps_trying_sample : KeepsTrying attempting := keeps_trying attempting_reached

end Splitcore.Redis
