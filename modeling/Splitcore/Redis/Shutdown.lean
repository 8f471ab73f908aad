import Splitcore.Redis.Service

/-!
The connection when the server stops: what is still to come, and that in the end nothing is left.
-/

namespace Splitcore.Redis

open Machines

/-! ### What is claimed -/

/-- A lifecycle hook begins. -/
def hook : Event → Bool
  | .onModuleInit _ | .onModuleDestroy _ => true
  | _ => false

/-- What was begun goes on: a call settles or returns, or a client has quitted. -/
def winds : Event → Bool
  | .settles _ _ | .resumes _ | .quits _ => true
  | _ => false

/-- Nothing is set, nothing is waited for, and a client that there is has been closed. -/
structure Down (p : Process) : Prop where
  timeouts : p.timeouts = []
  attempts : p.attempts = []
  quits : p.quits = []
  closed : p.service.enabled = true → p.closed = true

/-- Every timeout that is set is the one that will reconnect, which the service knows of, or one for something that
is waited for. Once the service is destroyed, whatever happens then, none will reconnect and the client is never
told to connect again; what was begun goes on for a bounded number of steps, and when it is at an end the service is
down. -/
structure ShutsDown (p : Process) : Prop where
  known : p.timeouts.Perm (p.service.reconnectTimer.toList ++ p.awaited)
  quiet : p.service.destroyed = true → ∀ es p', Runs Next p es p' →
    (∀ timer ∈ p'.timeouts, timer.callback ≠ .reconnect) ∧ p'.connects = p.connects
  bounded : p.service.destroyed = true → ∀ es p', Runs Next p es p' → (∀ event ∈ es, hook event = false) →
    es.countP winds ≤ 3 * p.attempts.length + p.quits.length
  down : p.service.destroyed = true → (∀ event p', winds event = true → ¬ Next p event p') → Down p

variable {p p' : Process} {event : Event} {es : List Event} {status : ClientStatus} {i : ℕ} {ok : Bool}

/-! ### The client is closed -/

/-- Once the service is destroyed, the client that there is is closing, or closed. -/
def Closes (p : Process) : Prop :=
  p.service.destroyed = true → p.service.enabled = true → p.quits ≠ [] ∨ p.closed = true

theorem closes_step (h : Closes p) (hs : Next p event p') : Closes p' := by
  rcases closing_step hs with hsame | ⟨status, -, rfl⟩ | ⟨i, -, hquits⟩
  · simp only [Process.closing, Prod.mk.injEq] at hsame
    obtain ⟨hdestroyed, henabled, hquits, hclosed⟩ := hsame
    unfold Closes
    rw [hdestroyed, henabled, hquits, hclosed]
    exact h
  · exact fun _ => onModuleDestroy_destroys.closes
  · obtain ⟨timer, -, rfl⟩ := quitted_cases hquits
    exact fun _ _ => .inr rfl

lemma closes_of_reached (h : Reached p) : Closes p := by
  obtain ⟨enabled, es, hruns⟩ := h
  exact hruns.keeps (fun _ _ _ hcloses hs => closes_step hcloses hs) fun hdestroyed => by cases hdestroyed

/-! ### After the end -/

lemma destroyed_step (h : p.service.destroyed = true) (hs : Next p event p') : p'.service.destroyed = true := by
  rcases closing_step hs with hsame | ⟨status, -, rfl⟩ | ⟨i, -, hquits⟩
  · exact (Prod.mk.inj hsame).1.trans h
  · exact onModuleDestroy_destroys.destroyed
  · obtain ⟨timer, -, rfl⟩ := quitted_cases hquits
    exact h

/-- A destroyed service that schedules nothing more. -/
lemma scheduleReconnect_destroyed (h : p.service.destroyed = true) : scheduleReconnect p = p := by
  rw [scheduleReconnect, if_pos (.inl h)]

lemma onClient_destroyed {event : ClientEvent} (h : p.service.destroyed = true) :
    ∃ service, onClient p event = { p with service } := by
  cases event with
  | ended =>
    refine ⟨{ p.service with isConnected := false }, ?_⟩
    unfold onClient
    dsimp only
    rw [h]
    rfl
  | _ => exact ⟨_, rfl⟩

/-- What is still to come of what was begun. -/
def Process.remaining (p : Process) : ℕ := p.weight + p.quits.length

lemma remaining_quitted (h : quitted i p = some p') : 1 + p'.remaining ≤ p.remaining := by
  obtain ⟨timer, hat, rfl⟩ := quitted_cases h
  have hlength := (perm_eraseIdx hat).length_eq
  rw [List.length_cons] at hlength
  simp only [Process.remaining, Process.weight, disconnect, Process.clearTimeout]
  omega

lemma remaining_resumes (hat : p.attempts[i]? = some .returned) :
    1 + Process.remaining { p with attempts := p.attempts.eraseIdx i } ≤ p.remaining := by
  have hweight : p.weight = 1 + Process.weight { p with attempts := p.attempts.eraseIdx i } :=
    weight_of_perm (perm_eraseIdx hat)
  simp only [Process.remaining]
  omega

/-- The state of a service that is destroyed. -/
def Ending (p : Process) : Prop := Known p ∧ p.service.destroyed = true

lemma Ending.timer (h : Ending p) : p.service.reconnectTimer = none := h.1.idle (.inl h.2)

lemma Ending.no_reconnect (h : Ending p) {timer : Timeout} (hmem : timer ∈ p.timeouts) :
    timer.callback ≠ .reconnect := by
  intro hreconnect
  have htimer := h.1.reconnects hmem hreconnect
  rw [h.timer] at htimer
  cases htimer

lemma ending_step (h : Ending p) (hs : Next p event p') : Ending p' := ⟨known_step h.1 hs, destroyed_step h.2 hs⟩

/-- **What an event does once the service is destroyed**: the client is not told to connect, and no more is begun
but by the hooks. -/
theorem winds_step (h : Ending p) (hs : Next p event p') : p'.connects = p.connects ∧
    (hook event = false → (if winds event then 1 else 0) + p'.remaining ≤ p.remaining) := by
  cases event with
  | onModuleInit status =>
    simp only [Next, step, tryConnect_destroyed h.2, Option.some.injEq] at hs
    subst hs
    refine ⟨?_, fun hhook => by cases hhook⟩
    split <;> rfl
  | onModuleDestroy status =>
    simp only [Next, step, Option.some.injEq] at hs
    subst hs
    refine ⟨?_, fun hhook => by cases hhook⟩
    have hclose : ∀ q : Process, (close status q).connects = q.connects := by
      intro q
      unfold close
      split <;> rfl
    unfold onModuleDestroy
    dsimp only
    split
    · rfl
    · rw [hclose]
      split <;> rfl
  | client event =>
    simp only [Next, step, Option.ite_none_left_eq_some, Option.some.injEq] at hs
    obtain ⟨-, rfl⟩ := hs
    obtain ⟨service, heq⟩ : ∃ service, onClient p event = { p with service } := onClient_destroyed h.2
    rw [heq]
    exact ⟨rfl, fun _ => by simp [winds, Process.remaining, Process.weight]⟩
  | timeout id status =>
    simp only [Next, step, Option.ite_none_right_eq_some] at hs
    exact absurd rfl (h.no_reconnect hs.1)
  | settles i ok =>
    have hweight := weight_settle hs
    obtain ⟨attempt, timer, -, -, ⟨isConnected, rfl⟩ | ⟨-, rfl⟩⟩ := settle_cases hs
    · refine ⟨rfl, fun _ => ?_⟩
      simp only [winds, if_true, Process.remaining, Process.clearTimeout] at hweight ⊢
      omega
    · refine ⟨rfl, fun _ => ?_⟩
      simp only [winds, if_true, Process.remaining, Process.setTimeout, Process.clearTimeout] at hweight ⊢
      omega
  | resumes i =>
    simp only [Next, step, Option.ite_none_right_eq_some, Option.some.injEq] at hs
    obtain ⟨hat, rfl⟩ := hs
    have hresume : resume { p with attempts := p.attempts.eraseIdx i } =
        { p with attempts := p.attempts.eraseIdx i } := by
      unfold resume
      split
      · exact scheduleReconnect_destroyed h.2
      · rfl
    rw [hresume]
    exact ⟨rfl, fun _ => remaining_resumes hat⟩
  | quits i =>
    refine ⟨?_, fun _ => remaining_quitted hs⟩
    obtain ⟨timer, -, rfl⟩ := quitted_cases hs
    rfl

/-- Whatever was begun can go on. -/
lemma exists_winds (h : p.attempts ≠ [] ∨ p.quits ≠ []) : ∃ event p', winds event = true ∧ Next p event p' := by
  rcases h with hattempts | hquits
  · obtain ⟨attempt, attempts, heq⟩ := List.exists_cons_of_ne_nil hattempts
    have hat : p.attempts[0]? = some attempt := by rw [heq]; rfl
    cases attempt with
    | connecting timer | pinging timer => exact ⟨.settles 0 false, _, rfl, by simp only [Next, step, settle, hat]; rfl⟩
    | returned => exact ⟨.resumes 0, _, rfl, by simp only [Next, step, hat, if_true]; rfl⟩
  · obtain ⟨timer, quits, heq⟩ := List.exists_cons_of_ne_nil hquits
    have hat : p.quits[0]? = some timer := by rw [heq]; rfl
    exact ⟨.quits 0, _, rfl, by simp only [Next, step, quitted, hat, Option.map_some]; rfl⟩

/-- **The service shuts down**, whatever is under way when it is destroyed. -/
theorem shuts_down (h : Reached p) : ShutsDown p where
  known := (known_of_reached h).known
  quiet hdestroyed es p' hruns := by
    have hend : Ending p' ∧ p'.connects = p.connects :=
      hruns.keeps (P := fun q => Ending q ∧ q.connects = p.connects)
        (fun q event q' hq hs => ⟨ending_step hq.1 hs, (winds_step hq.1 hs).1.trans hq.2⟩)
        ⟨⟨known_of_reached h, hdestroyed⟩, rfl⟩
    exact ⟨fun timer hmem => hend.1.no_reconnect hmem, hend.2⟩
  bounded hdestroyed es p' hruns hhooks := by
    have hending : Runs (fun q event q' => Ending q ∧ Next q event q') p es p' :=
      hruns.along (P := Ending) (fun _ _ _ hq hs => ending_step hq hs) ⟨known_of_reached h, hdestroyed⟩
    have hleft : Runs (fun q event q' => (Ending q ∧ Next q event q') ∧ hook event = false) p es p' :=
      hending.mono_mem fun q event q' he hs => ⟨hs, hhooks event he⟩
    have hpays : es.countP winds + p'.remaining ≤ p.remaining :=
      hleft.pays fun q event q' hs => (winds_step hs.1.1 hs.1.2).2 hs.2
    have hweight := weight_le_length p
    simp only [Process.remaining] at hpays
    omega
  down hdestroyed hover := by
    have hending : Ending p := ⟨known_of_reached h, hdestroyed⟩
    have hnothing : ¬(p.attempts ≠ [] ∨ p.quits ≠ []) := fun hbegun => by
      obtain ⟨event, p', hwinds, hs⟩ := exists_winds hbegun
      exact hover event p' hwinds hs
    obtain ⟨hattempts, hquits⟩ := not_or.mp hnothing
    rw [not_not] at hattempts hquits
    refine ⟨?_, hattempts, hquits, fun henabled => ?_⟩
    · have hperm := hending.1.known
      rw [hending.timer, Process.awaited, hattempts, hquits] at hperm
      exact hperm.eq_nil
    · exact (closes_of_reached h hdestroyed henabled).resolve_left fun hne => hne hquits

/-- It is destroyed while it waits for the client to connect, with a timeout that is left to go off. -/
theorem shuts_down_sample : ShutsDown (onModuleDestroy .connecting attempting) ∧
    (onModuleDestroy .connecting attempting).timeouts.length = 1 := by
  obtain ⟨enabled, es, hruns⟩ := attempting_reached
  exact ⟨shuts_down ⟨enabled, es ++ [.onModuleDestroy .connecting], hruns.append (.cons rfl (.nil _))⟩, rfl⟩

end Splitcore.Redis
