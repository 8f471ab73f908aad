import Mathlib.Algebra.BigOperators.Group.List.Basic
import Mathlib.Algebra.Order.Ring.Nat
import Splitcore.Machines.Runs

/-!
The shared Redis connection, which the server can do without.

The client is somebody else's: what it reports comes in any order, and its status is read off it. What the
service does about it is to try again later, a bounded number of times, and to stop when the server stops.
-/

namespace Splitcore.Redis

open Machines

inductive ClientStatus where
  | wait | connecting | connect | ready | close | reconnecting | ended
deriving DecidableEq

inductive ClientEvent where
  | connect | ready | error | close | ended
deriving DecidableEq

/-- What a timeout does when it goes off: it begins another attempt, or rejects what `withTimeout` waits for. -/
inductive Callback where
  | reconnect | reject
deriving DecidableEq

structure Timeout where
  id : ℕ
  callback : Callback
deriving DecidableEq

structure RedisService where
  enabled : Bool
  isConnected : Bool := false
  destroyed : Bool := false
  reconnectTimer : Option Timeout := none
  reconnectAttempts : ℕ := 0

/-- How far a call of `tryConnect` is: it waits for the connection, or for the reply to a ping, each with the
timeout that is set for it, or it has returned and its caller is about to look. -/
inductive Attempt where
  | connecting (timer : Timeout) | pinging (timer : Timeout) | returned
deriving DecidableEq

/-- The service, the timeouts that are set and how many were set so far, the calls of `tryConnect` under way, and
of `quit` the timeouts. Of the client, how often it was told to connect, and whether it was told to disconnect or
answered `quit`. -/
structure Process where
  service : RedisService
  timeouts : List Timeout := []
  timeoutsSet : ℕ := 0
  attempts : List Attempt := []
  quits : List Timeout := []
  connects : ℕ := 0
  closed : Bool := false

inductive Event where
  | onModuleInit (status : ClientStatus)
  | onModuleDestroy (status : ClientStatus)
  | client (event : ClientEvent)
  | timeout (id : ℕ) (status : ClientStatus)
  | settles (i : ℕ) (ok : Bool)
  | resumes (i : ℕ)
  | quits (i : ℕ)
deriving DecidableEq

def maxReconnectAttempts : ℕ := 12

/-! ### What the service does -/

/-- The timeout that is set next. -/
def Process.newTimeout (p : Process) (callback : Callback) : Timeout := ⟨p.timeoutsSet, callback⟩

def Process.setTimeout (p : Process) (callback : Callback) : Process :=
  { p with timeouts := p.timeouts ++ [p.newTimeout callback], timeoutsSet := p.timeoutsSet + 1 }

/-- It is cleared, or has gone off. -/
def Process.clearTimeout (p : Process) (timer : Timeout) : Process := { p with timeouts := p.timeouts.erase timer }

def Process.schedule (p : Process) : Process :=
  { p.setTimeout .reconnect with
    service := { p.service with
      reconnectAttempts := p.service.reconnectAttempts + 1, reconnectTimer := some (p.newTimeout .reconnect) } }

def Process.unschedule (p : Process) (timer : Timeout) : Process :=
  { p.clearTimeout timer with service := { p.service with reconnectTimer := none } }

def scheduleReconnect (p : Process) : Process :=
  if p.service.destroyed ∨ p.service.enabled = false ∨ p.service.reconnectTimer.isSome then p
  else if maxReconnectAttempts ≤ p.service.reconnectAttempts then p
  else p.schedule

def Process.begin (p : Process) (attempt : Attempt) : Process := { p with attempts := p.attempts ++ [attempt] }

/-- Up to where it waits, with a timeout. -/
def tryConnect (status : ClientStatus) (p : Process) : Process :=
  if p.service.destroyed ∨ p.service.enabled = false then p.begin .returned
  else if status = .ready then { p with service := { p.service with isConnected := true } }.begin .returned
  else if status = .connecting ∨ status = .reconnecting then p.begin .returned
  else ({ p with connects := p.connects + 1 }.setTimeout .reject).begin (.connecting (p.newTimeout .reject))

/-- The promise that a call of `tryConnect` waits for is fulfilled, or is rejected, by its timeout perhaps. The ping
that follows a connection has a timeout of its own, whatever has become of the service meanwhile. -/
def settle (i : ℕ) (ok : Bool) (p : Process) : Option Process :=
  match p.attempts[i]?, ok with
  | some (.connecting timer), true =>
    some { (p.clearTimeout timer).setTimeout .reject with
      attempts := p.attempts.set i (.pinging (p.newTimeout .reject)) }
  | some (.pinging timer), true =>
    some { p.clearTimeout timer with
      service := { p.service with isConnected := true }, attempts := p.attempts.set i .returned }
  | some (.connecting timer), false | some (.pinging timer), false =>
    some { p.clearTimeout timer with
      service := { p.service with isConnected := false }, attempts := p.attempts.set i .returned }
  | _, _ => none

/-- What the caller of `tryConnect` does afterwards, at startup as after a timeout. -/
def resume (p : Process) : Process := if !p.service.isConnected then scheduleReconnect p else p

def onClient (p : Process) : ClientEvent → Process
  | .connect => { p with service := { p.service with reconnectAttempts := 0 } }
  | .ready => { p with service := { p.service with isConnected := true } }
  | .error | .close => { p with service := { p.service with isConnected := false } }
  | .ended =>
    let p := { p with service := { p.service with isConnected := false } }
    if !p.service.destroyed then scheduleReconnect p else p

def disconnect (p : Process) : Process := { p with closed := true }

/-- A client that is not ready would never answer `quit`. -/
def close (status : ClientStatus) (p : Process) : Process :=
  if status = .ready then { p.setTimeout .reject with quits := p.quits ++ [p.newTimeout .reject] }
  else disconnect p

/-- Up to where it waits, with a timeout, for the client to quit. -/
def onModuleDestroy (status : ClientStatus) (p : Process) : Process :=
  let p := { p with service := { p.service with destroyed := true } }
  if p.service.enabled = false then p
  else close status (match p.service.reconnectTimer with
    | none => p
    | some timer => p.unschedule timer)

/-- The client has answered `quit`; or the promise is rejected, by its timeout perhaps, and the client is told to
disconnect. -/
def quitted (i : ℕ) (p : Process) : Option Process :=
  (p.quits[i]?).map fun timer => disconnect { p.clearTimeout timer with quits := p.quits.eraseIdx i }

/-- A timeout of `withTimeout` goes off with what it rejects: a call settles, or a client has quitted. -/
def step (p : Process) : Event → Option Process
  | .onModuleInit status => some (if p.service.enabled = false then p else tryConnect status p)
  | .onModuleDestroy status => some (onModuleDestroy status p)
  | .client event => if p.service.enabled = false then none else some (onClient p event)
  | .timeout id status =>
    if ⟨id, .reconnect⟩ ∈ p.timeouts then some (tryConnect status (p.unschedule ⟨id, .reconnect⟩)) else none
  | .settles i ok => settle i ok p
  | .resumes i =>
    if p.attempts[i]? = some .returned then some (resume { p with attempts := p.attempts.eraseIdx i }) else none
  | .quits i => quitted i p

abbrev Next (p : Process) (event : Event) (p' : Process) : Prop := step p event = some p'

/-- As the constructor leaves it. -/
def constructed (enabled : Bool) : Process := { service := { enabled } }

/-- The states a service gets to. -/
abbrev Reached (p : Process) : Prop := ∃ enabled es, Runs Next (constructed enabled) es p

/-! ### What each function does -/

variable {p p' p'' : Process} {event : Event} {es : List Event} {status : ClientStatus} {i : ℕ} {ok : Bool}
  {enabled : Bool} {timer : Timeout}

/-- It schedules nothing, for one of four reasons, or sets the one timeout. -/
lemma scheduleReconnect_cases (p : Process) :
    scheduleReconnect p = p ∧ (p.service.destroyed = true ∨ p.service.enabled = false ∨
      p.service.reconnectTimer ≠ none ∨ maxReconnectAttempts ≤ p.service.reconnectAttempts) ∨
    scheduleReconnect p = p.schedule ∧ p.service.destroyed = false ∧ p.service.enabled = true ∧
      p.service.reconnectTimer = none ∧ p.service.reconnectAttempts < maxReconnectAttempts := by
  unfold scheduleReconnect
  split
  · rename_i h
    rcases h with h | h | h
    · exact .inl ⟨rfl, .inl h⟩
    · exact .inl ⟨rfl, .inr (.inl h)⟩
    · exact .inl ⟨rfl, .inr (.inr (.inl (Option.isSome_iff_ne_none.mp h)))⟩
  rename_i h
  split
  · rename_i hmax
    exact .inl ⟨rfl, .inr (.inr (.inr hmax))⟩
  · rename_i hmax
    simp only [not_or, Bool.not_eq_true, Bool.not_eq_false, Option.isSome_eq_false_iff,
      Option.isNone_iff_eq_none] at h
    exact .inr ⟨rfl, h.1, h.2.1, h.2.2, Nat.lt_of_not_le hmax⟩

/-- It begins, and a client is told to connect only by a service that is in use. -/
lemma tryConnect_cases (status : ClientStatus) (p : Process) :
    tryConnect status p = p.begin .returned ∨
    tryConnect status p = { p with service := { p.service with isConnected := true } }.begin .returned ∨
    tryConnect status p =
      ({ p with connects := p.connects + 1 }.setTimeout .reject).begin (.connecting (p.newTimeout .reject)) ∧
      p.service.destroyed = false := by
  unfold tryConnect
  split
  · exact .inl rfl
  rename_i h
  split
  · exact .inr (.inl rfl)
  split
  · exact .inl rfl
  · exact .inr (.inr ⟨rfl, Bool.eq_false_iff.mpr (not_or.mp h).1⟩)

lemma tryConnect_destroyed (h : p.service.destroyed = true) : tryConnect status p = p.begin .returned := by
  rw [tryConnect, if_pos (.inl h)]

/-- The timeout that is set for what a call waits for. -/
def Attempt.timeout : Attempt → Option Timeout
  | .connecting timer | .pinging timer => some timer
  | .returned => none

/-- A call returns or begins to ping; its timeout is cleared. -/
lemma settle_cases (h : settle i ok p = some p') : ∃ attempt timer, p.attempts[i]? = some attempt ∧
    attempt.timeout = some timer ∧
    ((∃ isConnected, p' = { p.clearTimeout timer with
        service := { p.service with isConnected }, attempts := p.attempts.set i .returned }) ∨
      attempt = .connecting timer ∧ p' = { (p.clearTimeout timer).setTimeout .reject with
        attempts := p.attempts.set i (.pinging (p.newTimeout .reject)) }) := by
  unfold settle at h
  split at h
  · rename_i timer hat
    exact ⟨_, timer, hat, rfl, .inr ⟨rfl, (Option.some.inj h).symm⟩⟩
  · rename_i timer hat
    exact ⟨_, timer, hat, rfl, .inl ⟨true, (Option.some.inj h).symm⟩⟩
  · rename_i timer hat
    exact ⟨_, timer, hat, rfl, .inl ⟨false, (Option.some.inj h).symm⟩⟩
  · rename_i timer hat
    exact ⟨_, timer, hat, rfl, .inl ⟨false, (Option.some.inj h).symm⟩⟩
  · cases h

lemma quitted_cases (h : quitted i p = some p') : ∃ timer, p.quits[i]? = some timer ∧
    p' = disconnect { p.clearTimeout timer with quits := p.quits.eraseIdx i } := by
  obtain ⟨timer, hat, heq⟩ := Option.map_eq_some_iff.mp h
  exact ⟨timer, hat, heq.symm⟩

/-! ### Which timeouts are set -/

/-- The timeouts of what is waited for. -/
def Process.awaited (p : Process) : List Timeout := p.attempts.filterMap Attempt.timeout ++ p.quits

/-- The invariant: the service knows the timeout that will reconnect, and has none when it is destroyed or off;
every other is for something that is waited for. -/
structure Known (p : Process) : Prop where
  known : p.timeouts.Perm (p.service.reconnectTimer.toList ++ p.awaited)
  rejects : ∀ timer ∈ p.awaited, timer.callback = .reject
  idle : p.service.destroyed = true ∨ p.service.enabled = false → p.service.reconnectTimer = none
  bounded : p.service.reconnectAttempts ≤ maxReconnectAttempts

/-- Nothing else is scheduled. -/
structure SameSchedule (service service' : RedisService) : Prop where
  timer : service'.reconnectTimer = service.reconnectTimer
  destroyed : service'.destroyed = service.destroyed
  enabled : service'.enabled = service.enabled
  attempts : service'.reconnectAttempts ≤ service.reconnectAttempts

lemma SameSchedule.refl (service : RedisService) : SameSchedule service service := ⟨rfl, rfl, rfl, Nat.le_refl _⟩

lemma SameSchedule.idle (hservice : SameSchedule p.service p'.service) (h : Known p)
    (hidle : p'.service.destroyed = true ∨ p'.service.enabled = false) : p'.service.reconnectTimer = none := by
  rw [hservice.destroyed, hservice.enabled] at hidle
  rw [hservice.timer]
  exact h.idle hidle

namespace Known

lemma of_perm (h : Known p) (htimeouts : p'.timeouts = p.timeouts) (hawaited : p'.awaited.Perm p.awaited)
    (hservice : SameSchedule p.service p'.service) : Known p' where
  known := by
    rw [htimeouts, hservice.timer]
    exact h.known.trans (hawaited.symm.append_left _)
  rejects timer htimer := h.rejects timer (hawaited.mem_iff.mp htimer)
  idle := hservice.idle h
  bounded := Nat.le_trans hservice.attempts h.bounded

/-- Something more is waited for, with a timeout. -/
lemma awaits (h : Known p) (hreject : timer.callback = .reject) (htimeouts : p'.timeouts = p.timeouts ++ [timer])
    (hawaited : p'.awaited.Perm (timer :: p.awaited)) (hservice : SameSchedule p.service p'.service) : Known p' where
  known := by
    rw [htimeouts, hservice.timer]
    have hall : (timer :: p.timeouts).Perm (p.service.reconnectTimer.toList ++ timer :: p.awaited) :=
      (h.known.cons timer).trans List.perm_middle.symm
    exact (List.perm_append_singleton _ _).trans (hall.trans (hawaited.symm.append_left _))
  rejects t ht := by
    rcases List.mem_cons.mp (hawaited.mem_iff.mp ht) with rfl | ht
    · exact hreject
    · exact h.rejects t ht
  idle := hservice.idle h
  bounded := Nat.le_trans hservice.attempts h.bounded

/-- Something is waited for no longer, and its timeout is cleared. -/
lemma settles (h : Known p) (htimeouts : p'.timeouts = p.timeouts.erase timer)
    (hawaited : p.awaited.Perm (timer :: p'.awaited)) (hservice : SameSchedule p.service p'.service) : Known p' where
  known := by
    have hall : p.timeouts.Perm (timer :: (p.service.reconnectTimer.toList ++ p'.awaited)) :=
      h.known.trans ((hawaited.append_left _).trans List.perm_middle)
    have hrest := hall.erase timer
    rw [List.erase_cons_head] at hrest
    rw [htimeouts, hservice.timer]
    exact hrest
  rejects t ht := h.rejects t (hawaited.mem_iff.mpr (List.mem_cons_of_mem _ ht))
  idle := hservice.idle h
  bounded := Nat.le_trans hservice.attempts h.bounded

/-- A timeout that will reconnect is the one that the service knows. -/
lemma reconnects (h : Known p) (hmem : timer ∈ p.timeouts) (hreconnect : timer.callback = .reconnect) :
    p.service.reconnectTimer = some timer := by
  rcases List.mem_append.mp (h.known.mem_iff.mp hmem) with hmem | hmem
  · exact Option.mem_toList.mp hmem
  · have hreject := h.rejects timer hmem
    rw [hreconnect] at hreject
    cases hreject

lemma unschedule (h : Known p) (htimer : p.service.reconnectTimer = some timer) : Known (p.unschedule timer) where
  known := by
    have hall := h.known
    rw [htimer] at hall
    exact (List.perm_cons_erase (hall.mem_iff.mpr List.mem_cons_self)).symm.trans hall |>.cons_inv
  rejects := h.rejects
  idle _ := rfl
  bounded := h.bounded

lemma scheduleReconnect (h : Known p) : Known (scheduleReconnect p) := by
  rcases scheduleReconnect_cases p with ⟨heq, -⟩ | ⟨heq, hlive, hon, hnone, hlt⟩
  · rw [heq]
    exact h
  rw [heq]
  refine ⟨?_, h.rejects, fun hidle => ?_, hlt⟩
  · have hall := h.known
    rw [hnone] at hall
    exact (List.perm_append_singleton _ _).trans (hall.cons _)
  · rcases hidle with hdestroyed | hoff
    · exact absurd (hlive.symm.trans hdestroyed) Bool.false_ne_true
    · exact absurd (hoff.symm.trans hon) Bool.false_ne_true

end Known

/-! ### What is waited for -/

lemma awaited_begin (attempt : Attempt) : (p.begin attempt).awaited.Perm (attempt.timeout.toList ++ p.awaited) := by
  have hmap : (p.begin attempt).attempts.filterMap Attempt.timeout =
      p.attempts.filterMap Attempt.timeout ++ attempt.timeout.toList := by
    cases attempt <;> simp [Process.begin, Attempt.timeout]
  unfold Process.awaited
  rw [hmap, List.append_assoc]
  exact (List.perm_append_comm_assoc _ _ _)

section Lists

variable {α : Type} {l : List α} {a b : α}

lemma perm_eraseIdx (h : l[i]? = some a) : l.Perm (a :: l.eraseIdx i) := by
  obtain ⟨hi, rfl⟩ := List.getElem?_eq_some_iff.mp h
  exact (List.getElem_cons_eraseIdx_perm hi).symm

lemma perm_set (h : l[i]? = some a) : (l.set i b).Perm (b :: l.eraseIdx i) :=
  List.set_perm_cons_eraseIdx (List.getElem?_eq_some_iff.mp h).1 b

end Lists

lemma awaited_of_perm {attempt : Attempt} {attempts : List Attempt} (h : p.attempts.Perm (attempt :: attempts)) :
    p.awaited.Perm (attempt.timeout.toList ++ { p with attempts }.awaited) := by
  have hmap : (attempt :: attempts).filterMap Attempt.timeout =
      attempt.timeout.toList ++ attempts.filterMap Attempt.timeout := by
    cases attempt <;> simp [Attempt.timeout, List.filterMap_cons]
  have hperm := h.filterMap Attempt.timeout
  rw [hmap] at hperm
  unfold Process.awaited
  rw [← List.append_assoc]
  exact hperm.append_right _

namespace Known

lemma tryConnect (h : Known p) : Known (tryConnect status p) := by
  rcases tryConnect_cases status p with heq | heq | ⟨heq, -⟩
  · rw [heq]
    exact h.of_perm rfl (awaited_begin .returned) (.refl _)
  · rw [heq]
    exact h.of_perm rfl (awaited_begin .returned) ⟨rfl, rfl, rfl, Nat.le_refl _⟩
  · rw [heq]
    exact h.awaits rfl rfl (awaited_begin _) (.refl _)

lemma settle (h : Known p) (hs : settle i ok p = some p') : Known p' := by
  obtain ⟨attempt, timer, hat, htimer, hcases⟩ := settle_cases hs
  -- without the call and its timeout
  have hrest : Known { p.clearTimeout timer with attempts := p.attempts.eraseIdx i } := by
    refine h.settles rfl ?_ (.refl _)
    have hperm := awaited_of_perm (perm_eraseIdx hat)
    rw [htimer] at hperm
    exact hperm
  rcases hcases with ⟨isConnected, rfl⟩ | ⟨rfl, rfl⟩
  · refine hrest.of_perm rfl ?_ ⟨rfl, rfl, rfl, Nat.le_refl _⟩
    exact awaited_of_perm (p := { p.clearTimeout timer with attempts := p.attempts.set i .returned }) (perm_set hat)
  · refine hrest.awaits rfl rfl ?_ (.refl _)
    exact awaited_of_perm (p := { p.clearTimeout timer with
      attempts := p.attempts.set i (.pinging (p.newTimeout .reject)) }) (perm_set hat)

lemma quitted (h : Known p) (hs : quitted i p = some p') : Known p' := by
  obtain ⟨timer, hat, rfl⟩ := quitted_cases hs
  exact h.settles rfl (((perm_eraseIdx hat).append_left _).trans List.perm_middle) (.refl _)

lemma close (h : Known p) : Known (close status p) := by
  unfold Redis.close
  split
  · refine h.awaits rfl rfl ?_ (.refl _)
    unfold Process.awaited
    dsimp only
    rw [← List.append_assoc]
    exact List.perm_append_singleton _ _
  · exact h.of_perm rfl (List.Perm.refl _) (.refl _)

lemma onModuleDestroy (h : Known p) : Known (onModuleDestroy status p) := by
  unfold Redis.onModuleDestroy
  dsimp only
  split
  · rename_i hoff
    exact ⟨h.known, h.rejects, fun _ => h.idle (.inr hoff), h.bounded⟩
  split
  · rename_i hnone
    have hdestroyed : Known { p with service := { p.service with destroyed := true } } :=
      ⟨h.known, h.rejects, fun _ => hnone, h.bounded⟩
    exact hdestroyed.close
  · rename_i timer htimer
    have hcleared := h.unschedule htimer
    have hdestroyed : Known (Process.unschedule { p with service := { p.service with destroyed := true } } timer) :=
      ⟨hcleared.known, hcleared.rejects, fun _ => rfl, hcleared.bounded⟩
    exact hdestroyed.close

lemma onClient {event : ClientEvent} (h : Known p) : Known (onClient p event) := by
  have hsame : ∀ service, SameSchedule p.service service → Known { p with service } :=
    fun service hservice => h.of_perm rfl (List.Perm.refl _) hservice
  cases event with
  | connect => exact hsame _ ⟨rfl, rfl, rfl, Nat.zero_le _⟩
  | ready | error | close => exact hsame _ ⟨rfl, rfl, rfl, Nat.le_refl _⟩
  | ended =>
    have hlost := hsame { p.service with isConnected := false } ⟨rfl, rfl, rfl, Nat.le_refl _⟩
    unfold Redis.onClient
    dsimp only
    split
    · exact hlost.scheduleReconnect
    · exact hlost

end Known

theorem known_step (h : Known p) (hs : Next p event p') : Known p' := by
  cases event with
  | onModuleInit status =>
    simp only [Next, step, Option.some.injEq] at hs
    subst hs
    split
    · exact h
    · exact h.tryConnect
  | onModuleDestroy status =>
    simp only [Next, step, Option.some.injEq] at hs
    subst hs
    exact h.onModuleDestroy
  | client event =>
    simp only [Next, step, Option.ite_none_left_eq_some, Option.some.injEq] at hs
    obtain ⟨-, rfl⟩ := hs
    exact h.onClient
  | timeout id status =>
    simp only [Next, step, Option.ite_none_right_eq_some, Option.some.injEq] at hs
    obtain ⟨hid, rfl⟩ := hs
    exact (h.unschedule (h.reconnects hid rfl)).tryConnect
  | settles i ok => exact h.settle hs
  | resumes i =>
    simp only [Next, step, Option.ite_none_right_eq_some, Option.some.injEq] at hs
    obtain ⟨hat, rfl⟩ := hs
    have hrest : Known { p with attempts := p.attempts.eraseIdx i } :=
      h.of_perm rfl (awaited_of_perm (perm_eraseIdx hat)).symm (.refl _)
    unfold resume
    split
    · exact hrest.scheduleReconnect
    · exact hrest
  | quits i => exact h.quitted hs

lemma known_of_reached (h : Reached p) : Known p := by
  obtain ⟨enabled, es, hruns⟩ := h
  refine hruns.keeps (fun _ _ _ hknown hs => known_step hknown hs) ⟨List.Perm.refl _, fun timer htimer => ?_,
    fun _ => rfl, Nat.zero_le _⟩
  cases htimer

/-! ### What becomes of the client -/

/-- Whether the service is destroyed, and how its client is closed. -/
def Process.closing (p : Process) : Bool × Bool × List Timeout × Bool :=
  (p.service.destroyed, p.service.enabled, p.quits, p.closed)

lemma closing_scheduleReconnect : (scheduleReconnect p).closing = p.closing := by
  rcases scheduleReconnect_cases p with ⟨heq, -⟩ | ⟨heq, -⟩
  · rw [heq]
  · rw [heq]
    rfl

lemma closing_tryConnect : (tryConnect status p).closing = p.closing := by
  rcases tryConnect_cases status p with heq | heq | ⟨heq, -⟩ <;> rw [heq] <;> rfl

lemma closing_onClient {event : ClientEvent} : (onClient p event).closing = p.closing := by
  cases event with
  | ended =>
    unfold onClient
    dsimp only
    split
    · exact closing_scheduleReconnect
    · rfl
  | _ => rfl

/-- The client is left alone, but for when it has quitted or is to be closed. -/
theorem closing_step (hs : Next p event p') : p'.closing = p.closing ∨
    (∃ status, event = .onModuleDestroy status ∧ p' = onModuleDestroy status p) ∨
    ∃ i, event = .quits i ∧ quitted i p = some p' := by
  cases event with
  | onModuleInit status =>
    simp only [Next, step, Option.some.injEq] at hs
    subst hs
    split
    · exact .inl rfl
    · exact .inl closing_tryConnect
  | onModuleDestroy status => exact .inr (.inl ⟨status, rfl, (Option.some.inj hs).symm⟩)
  | client event =>
    simp only [Next, step, Option.ite_none_left_eq_some, Option.some.injEq] at hs
    obtain ⟨-, rfl⟩ := hs
    exact .inl closing_onClient
  | timeout id status =>
    simp only [Next, step, Option.ite_none_right_eq_some, Option.some.injEq] at hs
    obtain ⟨-, rfl⟩ := hs
    exact .inl closing_tryConnect
  | settles i ok =>
    obtain ⟨attempt, timer, -, -, ⟨isConnected, rfl⟩ | ⟨-, rfl⟩⟩ := settle_cases hs <;> exact .inl rfl
  | resumes i =>
    simp only [Next, step, Option.ite_none_right_eq_some, Option.some.injEq] at hs
    obtain ⟨-, rfl⟩ := hs
    unfold resume
    split
    · exact .inl closing_scheduleReconnect
    · exact .inl rfl
  | quits i => exact .inr (.inr ⟨i, rfl, hs⟩)

lemma close_service : (close status p).service = p.service := by
  unfold close
  split <;> rfl

lemma close_closes : (close status p).quits ≠ [] ∨ (close status p).closed = true := by
  unfold close
  split
  · exact .inl (by simp)
  · exact .inr rfl

/-- The service is destroyed, and the client that there is is closing. -/
structure Destroys (p p' : Process) : Prop where
  destroyed : p'.service.destroyed = true
  enabled : p'.service.enabled = p.service.enabled
  closes : p'.service.enabled = true → p'.quits ≠ [] ∨ p'.closed = true

lemma onModuleDestroy_destroys : Destroys p (onModuleDestroy status p) := by
  unfold onModuleDestroy
  dsimp only
  split
  · rename_i hoff
    exact ⟨rfl, rfl, fun hon => absurd (hoff.symm.trans hon) Bool.false_ne_true⟩
  · split
    · exact ⟨by rw [close_service], by rw [close_service], fun _ => close_closes⟩
    · exact ⟨by rw [close_service]; rfl, by rw [close_service]; rfl, fun _ => close_closes⟩

lemma enabled_step (hs : Next p event p') : p'.service.enabled = p.service.enabled := by
  rcases closing_step hs with hsame | ⟨status, -, rfl⟩ | ⟨i, -, hquits⟩
  · exact (Prod.mk.inj (Prod.mk.inj hsame).2).1
  · exact onModuleDestroy_destroys.enabled
  · obtain ⟨timer, -, rfl⟩ := quitted_cases hquits
    rfl

/-! ### What is still to be done -/

/-- How often a call still goes on. -/
def Attempt.weight : Attempt → ℕ
  | .connecting _ => 3
  | .pinging _ => 2
  | .returned => 1

lemma weight_le (attempt : Attempt) : attempt.weight ≤ 3 := by
  cases attempt <;> simp [Attempt.weight]

def Process.weight (p : Process) : ℕ := (p.attempts.map Attempt.weight).sum

lemma weight_of_perm {attempt : Attempt} {attempts : List Attempt} (h : p.attempts.Perm (attempt :: attempts)) :
    p.weight = attempt.weight + (attempts.map Attempt.weight).sum := by
  rw [Process.weight, (h.map Attempt.weight).sum_eq, List.map_cons, List.sum_cons]

lemma weight_le_length (p : Process) : p.weight ≤ 3 * p.attempts.length := by
  unfold Process.weight
  induction p.attempts with
  | nil => simp
  | cons attempt attempts ih =>
    have hweight := weight_le attempt
    simp only [List.map_cons, List.sum_cons, List.length_cons]
    omega

lemma weight_begin (attempt : Attempt) : (p.begin attempt).weight = attempt.weight + p.weight :=
  weight_of_perm (List.perm_append_singleton _ _)

lemma weight_settle (h : settle i ok p = some p') : 1 + p'.weight ≤ p.weight := by
  obtain ⟨attempt, timer, hat, htimer, hcases⟩ := settle_cases h
  rw [weight_of_perm (perm_eraseIdx hat)]
  rcases hcases with ⟨isConnected, rfl⟩ | ⟨rfl, rfl⟩
  · rw [weight_of_perm (perm_set hat)]
    cases attempt with
    | returned => cases htimer
    | connecting timer | pinging timer => simp only [Attempt.weight]; omega
  · rw [weight_of_perm (perm_set hat)]
    simp only [Attempt.weight]
    omega

/-! ### Redis is never there -/

/-- The first attempt fails, the client gives up, and the timeout that is set then begins another attempt. -/
def unreachable : List Event :=
  [.onModuleInit .wait, .client .error, .client .ended, .settles 0 false, .resumes 0, .timeout 1 .ended]

/-- The second attempt is under way. -/
def attempting : Process :=
  { service := { enabled := true, reconnectAttempts := 1 }
    timeouts := [⟨2, .reject⟩]
    timeoutsSet := 3
    attempts := [.connecting ⟨2, .reject⟩]
    connects := 2 }

lemma attempting_reached : Reached attempting :=
  ⟨true, unreachable, .cons rfl (.cons rfl (.cons rfl (.cons rfl (.cons rfl (.cons rfl (.nil _))))))⟩

end Splitcore.Redis
