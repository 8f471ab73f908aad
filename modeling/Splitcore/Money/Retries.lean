import Splitcore.Money.Services

/-!
Retries that the queue has to remember.

The payouts queue has at most one job for each payout, under the payout's id. A worker takes a job that
waits and runs `processPayout`; until the queue learns how that ended the job is active, and adding it
again does nothing.
-/

namespace Splitcore.Money

open Relational Interleaving

/-! ### The queue -/

/-- A job waits, for its delay or for a worker; or it is active, under the lock a worker took it with,
and its run may have ended without the queue knowing. -/
inductive JobState where
  | queued
  | active (token : ℕ) (ended : Option (Option Err))

structure PayoutJob where
  state : JobState
  attemptsMade : ℕ
  stalls : ℕ

structure PayoutsQueue where
  jobs : Uuid → Option PayoutJob
  /-- How many locks were taken. -/
  tokens : ℕ
  /-- Whether Redis takes requests. -/
  reachable : Bool

/-- `payoutJobOptions`. -/
def PAYOUT_JOB_ATTEMPTS : ℕ := 5

def MAX_STALLED_COUNT : ℕ := 1

namespace PayoutsQueue

def set (x : PayoutsQueue) (payoutId : Uuid) (job : Option PayoutJob) : PayoutsQueue :=
  { x with jobs := Function.update x.jobs payoutId job }

/-- Adding a job whose id is that of one that is there does nothing. -/
def add (x : PayoutsQueue) (payoutId : Uuid) : PayoutsQueue :=
  if x.reachable && (x.jobs payoutId).isNone then x.set payoutId (some ⟨.queued, 0, 0⟩) else x

/-- A worker takes a job that waits. -/
def take (x : PayoutsQueue) (payoutId : Uuid) (token : ℕ) : Option PayoutsQueue :=
  match x.jobs payoutId with
  | some ⟨.queued, attemptsMade, stalls⟩ => if token = x.tokens then
      some { x.set payoutId (some ⟨.active token none, attemptsMade, stalls⟩) with tokens := x.tokens + 1 }
    else none
  | _ => none

/-- The run under the lock has ended. -/
def ended (x : PayoutsQueue) (payoutId : Uuid) (token : ℕ) (result : Option Err) : PayoutsQueue :=
  match x.jobs payoutId with
  | some ⟨.active held none, attemptsMade, stalls⟩ => if held = token then
      x.set payoutId (some ⟨.active held (some result), attemptsMade, stalls⟩) else x
  | _ => x

/-- The queue learns how the run ended: the job is removed, or waits for another attempt. -/
def finished (x : PayoutsQueue) (payoutId : Uuid) : Option PayoutsQueue :=
  match x.jobs payoutId with
  | some ⟨.active _ (some none), _, _⟩ => some (x.set payoutId none)
  | some ⟨.active _ (some (some _)), attemptsMade, stalls⟩ => some (x.set payoutId
      (if attemptsMade + 1 < PAYOUT_JOB_ATTEMPTS then some ⟨.queued, attemptsMade + 1, stalls⟩ else none))
  | _ => none

/-- The lock was lost, whether or not the worker is still at it: the job waits again, or is given up. -/
def stalled (x : PayoutsQueue) (payoutId : Uuid) : Option PayoutsQueue :=
  match x.jobs payoutId with
  | some ⟨.active _ _, attemptsMade, stalls⟩ => some (x.set payoutId
      (if stalls < MAX_STALLED_COUNT then some ⟨.queued, attemptsMade, stalls + 1⟩ else none))
  | _ => none

end PayoutsQueue

/-- A worker's run of a job, or a call to the services from elsewhere. -/
inductive QueueTask where
  | worker (payoutId : Uuid) (token : ℕ)
  | call (op : Operation)

def QueueTask.program : QueueTask → Prog App Unit
  | .worker payoutId _ => processPayout payoutId
  | .call op => op.program

inductive QueueMove where
  | finished (payoutId : Uuid)
  | stalled (payoutId : Uuid)
  | redis (reachable : Bool)
  /-- The rest of the system. -/
  | others (db : Db)

/-- The services with the payouts queue: workers alone run `processPayout`. -/
def queueing : Outside App QueueTask PayoutsQueue QueueMove where
  entry := QueueTask.program
  start task _ x := match task with
    | .worker payoutId token => x.take payoutId token
    | .call (.processPayout _) => none
    | .call _ => some x
  send _ q x := match q with
    | .addPayoutJob payoutId _ => x.add payoutId
    | _ => x
  finish task result x := match task with
    | .worker payoutId token => x.ended payoutId token result
    | .call _ => x
  move v db x := match v with
    | .finished payoutId => (x.finished payoutId).map (db, ·)
    | .stalled payoutId => (x.stalled payoutId).map (db, ·)
    | .redis reachable => some (db, { x with reachable })
    | .others v => (elsewhere v db).map (·, x)

/-! ### What is claimed -/

abbrev QueuePool := Pool App QueueTask PayoutsQueue

abbrev QueueEvent := Event App QueueTask QueueMove

variable {p p' p₀ : QueuePool} {ev : QueueEvent} {id : Uuid} {r r' : Run App QueueTask} {token : ℕ}

/-- The run has looked at the payout. -/
def HasRead (r : Run App QueueTask) (id : Uuid) : Prop :=
  ∃ w s s', .stmt (.processPayoutFind id) w s s' ∈ r.log

/-- No run under the lock has looked at the payout. -/
def Unread (p : QueuePool) (id : Uuid) (token : ℕ) : Prop :=
  ∀ r ∈ p.runs, r.label = .worker id token → ¬HasRead r id

/-- A job of the payout waits or is delayed, or is being started: no run of it has looked at the payout. -/
def Pending (p : QueuePool) (id : Uuid) : Prop :=
  ∃ job, p.out.jobs id = some job ∧ ∀ token ended, job.state = .active token ended → Unread p id token

/-- The call has set the payout to `RETRYING`. -/
def SetRetrying (r : Run App QueueTask) (id : Uuid) : Prop :=
  ∃ site w s s', .stmt site w s s' ∈ r.log ∧ (site = .handleTransferEventReversed id ∨
    site = .handleTransferEventRetrying id ∨ site = .retryPayoutClaim id) ∧
    ∃ payout ∈ s'.payouts.rows, payout.id = id ∧ payout.status = .RETRYING

/-- The event is not a run of `processPayout` looking at the payout. -/
def NoRead (id : Uuid) (p : QueuePool) (ev : QueueEvent) : Prop :=
  ∀ i, executes ev = some i → ∀ r eff k, p.live i = some r → r.prog ≠ .stmt (.processPayoutFind id) eff k

/-- Whenever a call that has set a payout to `RETRYING` has its job added, a job of the payout is pending
until a run looks at the payout. -/
def NoneSwallowed (ok : QueuePool → QueueEvent → Prop) (p₀ : QueuePool) : Prop :=
  ∀ p p₁ p₂ i r id delay k, Reach queueing ok p₀ p → p.live i = some r →
    r.prog = .ask (.addPayoutJob id delay) k → SetRetrying r id → p.out.reachable = true →
    ok p (.send i) → step queueing p (.send i) = some p₁ →
    Reach queueing (fun p ev => ok p ev ∧ NoRead id p ev) p₁ p₂ → Pending p₂ id

/-- A retry's job is not added while one is active whose run has looked at the payout. -/
def AddsUnread (p : QueuePool) (ev : QueueEvent) : Prop :=
  ∀ i r id delay k, ev = .send i → p.live i = some r → r.prog = .ask (.addPayoutJob id delay) k →
    SetRetrying r id → p.out.reachable = true → ∀ job token ended, p.out.jobs id = some job →
      job.state = .active token ended → Unread p id token

/-- No job of a payout that is to be retried is given up before a run of it has looked at the payout. -/
def KeepsUnread (p : QueuePool) (ev : QueueEvent) : Prop :=
  ∀ id job token ended, (∃ r ∈ p.runs, SetRetrying r id) → p.out.jobs id = some job →
    job.state = .active token ended → Unread p id token →
    (ev = .move (.finished id) → job.attemptsMade + 1 < PAYOUT_JOB_ATTEMPTS) ∧
    (ev = .move (.stalled id) → job.stalls < MAX_STALLED_COUNT)

/-! ### One payout's job -/

section Job

variable {x x' : PayoutsQueue} {id' : Uuid}

lemma set_jobs {job : Option PayoutJob} :
    (x.set id' job).jobs id = if id = id' then job else x.jobs id := by
  simp [PayoutsQueue.set, Function.update_apply]

lemma set_tokens {job : Option PayoutJob} : (x.set id' job).tokens = x.tokens := rfl

lemma add_tokens : (x.add id').tokens = x.tokens := by
  unfold PayoutsQueue.add
  split <;> rfl

lemma add_jobs (x : PayoutsQueue) (id id' : Uuid) : (x.add id').jobs id = x.jobs id ∨
    x.jobs id = none ∧ (x.add id').jobs id = some ⟨.queued, 0, 0⟩ := by
  unfold PayoutsQueue.add
  split
  · rename_i h
    rw [Bool.and_eq_true, Option.isNone_iff_eq_none] at h
    rw [set_jobs]
    by_cases hid : id = id'
    · subst hid
      exact .inr ⟨h.2, if_pos rfl⟩
    · exact .inl (if_neg hid)
  · exact .inl rfl

/-- Once added, a job is there: the new one, or the one that was. -/
lemma added (id : Uuid) (hx : x.reachable = true) : ∃ job, (x.add id).jobs id = some job ∧
    (x.jobs id = some job ∨ job.state = .queued) := by
  unfold PayoutsQueue.add
  rw [hx, Bool.true_and]
  rcases hjob : x.jobs id with _ | job
  · exact ⟨⟨.queued, 0, 0⟩, by simp [set_jobs], .inr rfl⟩
  · exact ⟨job, by simpa using hjob, .inl rfl⟩

/-- What an event does to the job of one payout. -/
inductive JobGoes (p p' : QueuePool) (ev : QueueEvent) (id : Uuid) : Prop
  | same (hjob : p'.out.jobs id = p.out.jobs id)
  | added (hfree : p.out.jobs id = none) (hjob : p'.out.jobs id = some ⟨.queued, 0, 0⟩)
  | taken (attemptsMade stalls : ℕ) (hjob : p.out.jobs id = some ⟨.queued, attemptsMade, stalls⟩)
      (hjob' : p'.out.jobs id = some ⟨.active p.out.tokens none, attemptsMade, stalls⟩)
  | ended (r : Run App QueueTask) (token : ℕ) (result : Option Err) (attemptsMade stalls : ℕ)
      (hr : r ∈ p.runs) (hlabel : r.label = .worker id token) (hret : result = none → r.prog = .ret ())
      (hjob : p.out.jobs id = some ⟨.active token none, attemptsMade, stalls⟩)
      (hjob' : p'.out.jobs id = some ⟨.active token (some result), attemptsMade, stalls⟩)
  | finished (token attemptsMade stalls : ℕ)
      (hjob : p.out.jobs id = some ⟨.active token (some none), attemptsMade, stalls⟩)
      (hjob' : p'.out.jobs id = none)
  | failed (token : ℕ) (ended : Option (Option Err)) (attemptsMade stalls : ℕ) (hev : ev = .move (.finished id))
      (hjob : p.out.jobs id = some ⟨.active token ended, attemptsMade, stalls⟩)
      (hjob' : p'.out.jobs id = if attemptsMade + 1 < PAYOUT_JOB_ATTEMPTS then
        some ⟨.queued, attemptsMade + 1, stalls⟩ else none)
  | stalled (token : ℕ) (ended : Option (Option Err)) (attemptsMade stalls : ℕ) (hev : ev = .move (.stalled id))
      (hjob : p.out.jobs id = some ⟨.active token ended, attemptsMade, stalls⟩)
      (hjob' : p'.out.jobs id = if stalls < MAX_STALLED_COUNT then
        some ⟨.queued, attemptsMade, stalls + 1⟩ else none)

lemma take_cases (h : x.take id' token = some x') : ∃ attemptsMade stalls,
    x.jobs id' = some ⟨.queued, attemptsMade, stalls⟩ ∧ token = x.tokens ∧ x'.tokens = x.tokens + 1 ∧
    ∀ id, x'.jobs id = if id = id' then some ⟨.active token none, attemptsMade, stalls⟩ else x.jobs id := by
  unfold PayoutsQueue.take at h
  split at h
  · rename_i attemptsMade stalls hjob
    split at h
    · rename_i htoken
      cases h
      exact ⟨attemptsMade, stalls, hjob, htoken, rfl, fun id => set_jobs⟩
    · cases h
  · cases h

lemma ended_cases (x : PayoutsQueue) (id id' : Uuid) (token : ℕ) (result : Option Err) :
    (x.ended id' token result).jobs id = x.jobs id ∨ id = id' ∧ ∃ attemptsMade stalls,
      x.jobs id = some ⟨.active token none, attemptsMade, stalls⟩ ∧
      (x.ended id' token result).jobs id = some ⟨.active token (some result), attemptsMade, stalls⟩ := by
  unfold PayoutsQueue.ended
  split
  · rename_i held attemptsMade stalls hjob
    split
    · rename_i hheld
      subst hheld
      rw [set_jobs]
      by_cases hid : id = id'
      · subst hid
        exact .inr ⟨rfl, attemptsMade, stalls, hjob, if_pos rfl⟩
      · exact .inl (if_neg hid)
    · exact .inl rfl
  · exact .inl rfl

lemma ended_tokens {result : Option Err} : (x.ended id' token result).tokens = x.tokens := by
  unfold PayoutsQueue.ended
  split
  · split <;> rfl
  · rfl

end Job

/-- What an event does to the queue. -/
inductive QueueGoes (p p' : QueuePool) (ev : QueueEvent) : Prop
  | same (hjobs : p'.out.jobs = p.out.jobs) (htokens : p'.out.tokens = p.out.tokens)
  | added (id : Uuid) (hout : p'.out = p.out.add id)
  | taken (id : Uuid) (token : ℕ) (hev : ev = .start (.worker id token)) (hout : p.out.take id token = some p'.out)
  | ended (r : Run App QueueTask) (id : Uuid) (token : ℕ) (result : Option Err) (hr : r ∈ p.runs)
      (hlabel : r.label = .worker id token) (hret : result = none → r.prog = .ret ())
      (hout : p'.out = p.out.ended id token result)
  | finished (id : Uuid) (hev : ev = .move (.finished id)) (hout : p.out.finished id = some p'.out)
  | stalled (id : Uuid) (hev : ev = .move (.stalled id)) (hout : p.out.stalled id = some p'.out)

section Step

variable (hs : step queueing p ev = some p')
include hs

lemma queue_goes : QueueGoes p p' ev := by
  cases ev with
  | start task =>
    obtain ⟨x, hx, rfl⟩ := step_start hs
    cases task with
    | worker id token => exact .taken id token rfl hx
    | call op =>
      obtain rfl : p.out = x := by
        cases op <;> first | exact Option.some.inj hx | cases hx
      exact .same rfl rfl
  | exec i w =>
    obtain ⟨r, nm, eff, k, -, -, rfl⟩ := step_exec hs
    exact .same rfl rfl
  | lost i w e =>
    obtain ⟨r, nm, eff, k, -, -, rfl⟩ := step_lost hs
    exact .same rfl rfl
  | fail i e =>
    obtain ⟨r, nm, eff, k, -, -, rfl⟩ := step_fail hs
    exact .same rfl rfl
  | send i =>
    obtain ⟨r, q, k, -, -, -, rfl⟩ := step_send hs
    cases q with
    | addPayoutJob id delay => exact .added id rfl
    | _ => exact .same rfl rfl
  | answer i o =>
    obtain ⟨r, q, k, -, -, -, -, rfl⟩ := step_answer hs
    exact .same rfl rfl
  | finish i =>
    obtain ⟨r, result, hr, hres, rfl⟩ := step_finish hs
    rcases hlabel : r.label with ⟨id, token⟩ | op
    · refine .ended r id token result (List.mem_of_getElem? (live_eq_some.mp hr).1) hlabel (fun hnone => ?_) rfl
      rcases hres with ⟨hret, -⟩ | ⟨e, -, rfl⟩
      · exact hret
      · cases hnone
    · exact .same rfl rfl
  | crash i =>
    obtain ⟨r, -, rfl⟩ := step_crash hs
    exact .same rfl rfl
  | move v =>
    obtain ⟨db, x, hx, rfl⟩ := step_move hs
    cases v with
    | finished id =>
      obtain ⟨y, hy, heq⟩ := Option.map_eq_some_iff.mp hx
      cases heq
      exact .finished id rfl hy
    | stalled id =>
      obtain ⟨y, hy, heq⟩ := Option.map_eq_some_iff.mp hx
      cases heq
      exact .stalled id rfl hy
    | redis reachable =>
      cases hx
      exact .same rfl rfl
    | others v =>
      obtain ⟨y, -, heq⟩ := Option.map_eq_some_iff.mp hx
      cases heq
      exact .same rfl rfl

/-- **What an event does to a job.** -/
theorem job_goes (id : Uuid) : JobGoes p p' ev id := by
  cases queue_goes hs with
  | same hjobs htokens => exact .same (congrFun hjobs id)
  | added id' hout =>
    rcases add_jobs p.out id id' with hsame | ⟨hfree, hjob⟩
    · exact .same (hout ▸ hsame)
    · exact .added hfree (hout ▸ hjob)
  | taken id' token hev hout =>
    obtain ⟨attemptsMade, stalls, hjob, rfl, -, hjobs⟩ := take_cases hout
    by_cases hid : id = id'
    · subst hid
      exact .taken attemptsMade stalls hjob ((hjobs id).trans (if_pos rfl))
    · exact .same ((hjobs id).trans (if_neg hid))
  | ended r id' token result hr hlabel hret hout =>
    rcases ended_cases p.out id id' token result with hsame | ⟨rfl, attemptsMade, stalls, hjob, hjob'⟩
    · exact .same (hout ▸ hsame)
    · exact .ended r token result attemptsMade stalls hr hlabel hret hjob (hout ▸ hjob')
  | finished id' hev hout =>
    unfold PayoutsQueue.finished at hout
    by_cases hid : id = id'
    · subst hid
      split at hout
      · rename_i token attemptsMade stalls hjob
        refine .finished token attemptsMade stalls hjob ?_
        rw [← Option.some.inj hout, set_jobs, if_pos rfl]
      · rename_i token e attemptsMade stalls hjob
        refine .failed token _ attemptsMade stalls hev hjob ?_
        rw [← Option.some.inj hout, set_jobs, if_pos rfl]
      · cases hout
    · refine .same ?_
      split at hout
      · rw [← Option.some.inj hout, set_jobs, if_neg hid]
      · rw [← Option.some.inj hout, set_jobs, if_neg hid]
      · cases hout
  | stalled id' hev hout =>
    unfold PayoutsQueue.stalled at hout
    split at hout
    · rename_i token ended attemptsMade stalls hjob
      have hjobs : p'.out.jobs id = if id = id' then (if stalls < MAX_STALLED_COUNT then
          some ⟨.queued, attemptsMade, stalls + 1⟩ else none) else p.out.jobs id := by
        rw [← Option.some.inj hout]
        exact set_jobs
      by_cases hid : id = id'
      · subst hid
        exact .stalled token ended attemptsMade stalls hev hjob (hjobs.trans (if_pos rfl))
      · exact .same (hjobs.trans (if_neg hid))
    · cases hout

lemma tokens_le : p.out.tokens ≤ p'.out.tokens := by
  cases queue_goes hs with
  | same hjobs htokens => exact htokens.ge
  | added id hout => rw [hout, add_tokens]
  | taken id token hev hout =>
    obtain ⟨attemptsMade, stalls, -, -, htokens, -⟩ := take_cases hout
    omega
  | ended r id token result hr hlabel hret hout => rw [hout, ended_tokens]
  | finished id hev hout =>
    unfold PayoutsQueue.finished at hout
    split at hout
    · rw [← Option.some.inj hout, set_tokens]
    · rw [← Option.some.inj hout, set_tokens]
    · cases hout
  | stalled id hev hout =>
    unfold PayoutsQueue.stalled at hout
    split at hout
    · rw [← Option.some.inj hout, set_tokens]
    · cases hout

end Step

/-! ### What runs have looked at -/

/-- A worker's run that has not looked at the payout is about to, or has thrown. -/
def Begins (r : Run App QueueTask) : Prop :=
  ∀ id token, r.label = .worker id token → ¬HasRead r id → r.prog = processPayout id ∨ ∃ e, r.prog = .raise e

/-- What is so of the queue and the runs. -/
structure Tended (p : QueuePool) : Prop where
  begins : ∀ r ∈ p.runs, Begins r
  fresh : ∀ r ∈ p.runs, ∀ id token, r.label = .worker id token → token < p.out.tokens
  ended : ∀ id token attemptsMade stalls,
    p.out.jobs id = some ⟨.active token (some none), attemptsMade, stalls⟩ →
      ∃ r ∈ p.runs, r.label = .worker id token ∧ HasRead r id

lemma HasRead.grows (h : HasRead r id) (hlog : r.log <+: r'.log) : HasRead r' id := by
  obtain ⟨w, s, s', hread⟩ := h
  exact ⟨w, s, s', hlog.subset hread⟩

lemma SetRetrying.grows (h : SetRetrying r id) (hlog : r.log <+: r'.log) : SetRetrying r' id := by
  obtain ⟨site, w, s, s', hstmt, hset⟩ := h
  exact ⟨site, w, s, s', hlog.subset hstmt, hset⟩

lemma begins_new {task : QueueTask} {s : Db} : Begins (Run.new task s (queueing.entry task)) := by
  intro id token hlabel _
  obtain rfl : task = .worker id token := hlabel
  exact .inl rfl

/-- A run that asks has begun. -/
lemma Begins.of_asks {q : Ask} {k : Except Err (Ans q) → Prog App Unit} (h : Begins r) (hp : r.prog = .ask q k)
    (hlabel : r.label = .worker id token) : HasRead r id := by
  by_contra hread
  rcases h id token hlabel hread with hprog | ⟨e, hprog⟩
  · cases hp.symm.trans hprog
  · cases hp.symm.trans hprog

lemma Begins.of_ret (h : Begins r) (hp : r.prog = .ret ()) (hlabel : r.label = .worker id token) : HasRead r id := by
  by_contra hread
  rcases h id token hlabel hread with hprog | ⟨e, hprog⟩
  · cases hp.symm.trans hprog
  · cases hp.symm.trans hprog

/-- The first statement of a worker's run looks at the payout. -/
lemma Begins.of_stmt {nm : Site} {eff : Input → Db → Db} {k : Except Err (Input × Db) → Prog App Unit}
    (h : Begins r) (hp : r.prog = .stmt nm eff k) (hlabel : r.label = .worker id token) (hread : ¬HasRead r id) :
    nm = .processPayoutFind id ∧ ∀ e, k (.error e) = .raise e := by
  rcases h id token hlabel hread with hprog | ⟨e, hprog⟩
  · cases hp.symm.trans hprog
    exact ⟨rfl, fun _ => rfl⟩
  · cases hp.symm.trans hprog

lemma begins_step (h : ∀ r ∈ p.runs, Begins r) (hs : step queueing p ev = some p') :
    ∀ r ∈ p'.runs, Begins r := by
  have hmem : ∀ {i r}, p.live i = some r → Begins r := fun hr => h _ (List.mem_of_getElem? (live_eq_some.mp hr).1)
  have hput : ∀ {i : ℕ} {r : Run App QueueTask}, Begins r → ∀ q ∈ (p.put i r).runs, Begins q := by
    intro i r hr q hq
    rcases List.mem_or_eq_of_mem_set hq with hq | rfl
    · exact h q hq
    · exact hr
  have hfound : ∀ {r : Run App QueueTask} {nm eff k w s s'} {ds : List (Did App)} {q : Prog App Unit},
      Begins r → r.prog = .stmt nm eff k → .stmt nm w s s' ∈ ds → Begins (r.goes q ds) := by
    intro r nm eff k w s s' ds q hr hp hd id token hlabel hread
    have hunread : ¬HasRead r id := fun hread' => hread (hread'.grows (List.prefix_append _ _))
    obtain ⟨rfl, -⟩ := hr.of_stmt hp hlabel hunread
    exact absurd ⟨w, s, s', List.mem_append_right _ hd⟩ hread
  cases ev with
  | start task =>
    obtain ⟨x, -, rfl⟩ := step_start hs
    intro q hq
    rcases List.mem_append.mp hq with hq | hq
    · exact h q hq
    · rw [List.mem_singleton.mp hq]
      exact begins_new
  | exec i w =>
    obtain ⟨r, nm, eff, k, hr, hp, rfl⟩ := step_exec hs
    exact hput (hfound (hmem hr) hp (List.mem_singleton_self _))
  | lost i w e =>
    obtain ⟨r, nm, eff, k, hr, hp, rfl⟩ := step_lost hs
    exact hput (hfound (hmem hr) hp List.mem_cons_self)
  | fail i e =>
    obtain ⟨r, nm, eff, k, hr, hp, rfl⟩ := step_fail hs
    refine hput fun id token hlabel hread => .inr ⟨e, ?_⟩
    have hunread : ¬HasRead r id := fun hread' => hread (hread'.grows (List.prefix_append _ _))
    exact ((hmem hr).of_stmt hp hlabel hunread).2 e
  | send i =>
    obtain ⟨r, q, k, hr, hp, -, rfl⟩ := step_send hs
    refine hput (r := r.sent q) fun id token hlabel hread => ?_
    exact absurd (((hmem hr).of_asks hp hlabel).grows (List.prefix_append _ _)) hread
  | answer i o =>
    obtain ⟨r, q, k, hr, hp, -, -, rfl⟩ := step_answer hs
    refine hput fun id token hlabel hread => ?_
    exact absurd (((hmem hr).of_asks hp hlabel).grows (List.prefix_append _ _)) hread
  | finish i =>
    obtain ⟨r, result, hr, -, rfl⟩ := step_finish hs
    have hr := hmem hr
    exact hput (r := r.gone) hr
  | crash i =>
    obtain ⟨r, hr, rfl⟩ := step_crash hs
    have hr := hmem hr
    exact hput (r := r.gone) hr
  | move v =>
    obtain ⟨s, x, -, rfl⟩ := step_move hs
    exact h

lemma fresh_step (h : Tended p) (hs : step queueing p ev = some p') (r : Run App QueueTask)
    (hr : r ∈ p'.runs) (id : Uuid) (token : ℕ) (hlabel : r.label = .worker id token) : token < p'.out.tokens := by
  have hold : ∀ r ∈ p.runs, r.label = .worker id token → token < p'.out.tokens :=
    fun r hr hlabel => (h.fresh r hr id token hlabel).trans_le (tokens_le hs)
  obtain ⟨j, hj⟩ := List.getElem?_of_mem hr
  rcases step_run hs hj with ⟨hsame, -⟩ | ⟨task, rfl, -, rfl⟩ | ⟨q, ds, hq, hgoes, -⟩
  · exact hold r (List.mem_of_getElem? hsame) hlabel
  · obtain rfl : task = .worker id token := hlabel
    obtain ⟨x, hx, rfl⟩ := step_start hs
    obtain ⟨attemptsMade, stalls, -, htoken, htokens, -⟩ := take_cases hx
    show token < x.tokens
    omega
  · exact hold q (List.mem_of_getElem? (live_eq_some.mp hq).1) (hgoes.label.symm.trans hlabel)

/-- A job whose run came to its end was looked at. -/
lemma ended_step (h : Tended p) (hs : step queueing p ev = some p') (id : Uuid) (token attemptsMade stalls : ℕ)
    (hjob : p'.out.jobs id = some ⟨.active token (some none), attemptsMade, stalls⟩) :
    ∃ r ∈ p'.runs, r.label = .worker id token ∧ HasRead r id := by
  have hkeep : (∃ r ∈ p.runs, r.label = .worker id token ∧ HasRead r id) →
      ∃ r ∈ p'.runs, r.label = .worker id token ∧ HasRead r id := by
    rintro ⟨r, hr, hlabel, hread⟩
    obtain ⟨r', hr', hlabel', hlog⟩ := step_extends hs r hr
    exact ⟨r', hr', hlabel'.trans hlabel, hread.grows hlog⟩
  cases job_goes hs id with
  | same hsame => exact hkeep (h.ended id token attemptsMade stalls (hsame ▸ hjob))
  | added hfree hnew => cases hjob.symm.trans hnew
  | taken a s hwas hnew => cases hjob.symm.trans hnew
  | ended r token' result a s hr hlabel hret hwas hnew =>
    cases hjob.symm.trans hnew
    exact hkeep ⟨r, hr, hlabel, (h.begins r hr).of_ret (hret rfl) hlabel⟩
  | finished token' a s hwas hnew => cases hjob.symm.trans hnew
  | failed token' result a s hev hwas hnew =>
    rw [hnew] at hjob
    split at hjob <;> cases hjob
  | stalled token' result a s hev hwas hnew =>
    rw [hnew] at hjob
    split at hjob <;> cases hjob

lemma tended_step (h : Tended p) (hs : step queueing p ev = some p') : Tended p' :=
  ⟨begins_step h.begins hs, fresh_step h hs, ended_step h hs⟩

/-! ### A pending job stays -/

/-- No run under the lock looks at the payout in an event that is not one looking at it. -/
lemma unread_step (h : Unread p id token) (hno : NoRead id p ev) (hs : step queueing p ev = some p') :
    Unread p' id token := by
  intro r' hr' hlabel hread
  obtain ⟨j, hj⟩ := List.getElem?_of_mem hr'
  rcases step_run hs hj with ⟨hsame, -⟩ | ⟨task, -, -, rfl⟩ | ⟨r, ds, hr, hgoes, hadds⟩
  · exact h r' (List.mem_of_getElem? hsame) hlabel hread
  · obtain ⟨w, s, s', hstmt⟩ := hread
    cases hstmt
  · have hunread : ¬HasRead r id :=
      h r (List.mem_of_getElem? (live_eq_some.mp hr).1) (hgoes.label.symm.trans hlabel)
    obtain ⟨w, s, s', hstmt⟩ := hread
    rw [hgoes.log, List.mem_append] at hstmt
    rcases hstmt with hold | hnew
    · exact hunread ⟨w, s, s', hold⟩
    have hnot : ∀ {w}, executes ev = some j → ¬Executes p p' r (.processPayoutFind id) w := by
      rintro w hev ⟨eff, k, hp, -⟩
      exact hno j hev r eff k hr hp
    cases hadds with
    | stmt nm w' hev hex =>
      cases List.mem_singleton.mp hnew
      exact hnot hev hex
    | lost nm w' e hev hex =>
      rcases List.mem_cons.mp hnew with heq | hnew
      · cases heq
        exact hnot hev hex
      · cases List.mem_singleton.mp hnew
    | _ => simp at hnew

/-- A lock that is not taken yet. -/
lemma Tended.unread (h : Tended p) : Unread p id p.out.tokens :=
  fun r hr hlabel _ => absurd (h.fresh r hr id _ hlabel) (Nat.lt_irrefl _)

lemma pending_step (h : Tended p) (hpending : Pending p id) (hretried : ∃ r ∈ p.runs, SetRetrying r id)
    (hkeeps : KeepsUnread p ev) (hno : NoRead id p ev) (hs : step queueing p ev = some p') : Pending p' id := by
  obtain ⟨job, hjob, hunread⟩ := hpending
  have hqueued : ∀ {a s}, p'.out.jobs id = some ⟨.queued, a, s⟩ → Pending p' id :=
    fun hnew => ⟨_, hnew, fun _ _ hstate => by cases hstate⟩
  have hactive : ∀ {token ended a s}, Unread p id token → p'.out.jobs id = some ⟨.active token ended, a, s⟩ →
      Pending p' id := by
    intro token ended a s hun hnew
    refine ⟨_, hnew, fun token' ended' hstate => ?_⟩
    cases hstate
    exact unread_step hun hno hs
  cases job_goes hs id with
  | same hsame =>
    exact ⟨job, hsame.trans hjob, fun token ended hstate => unread_step (hunread token ended hstate) hno hs⟩
  | added hfree hnew => exact hqueued hnew
  | taken a s hwas hnew => exact hactive h.unread hnew
  | ended r token result a s hr hlabel hret hwas hnew =>
    obtain rfl := Option.some.inj (hjob.symm.trans hwas)
    exact hactive (hunread token none rfl) hnew
  | finished token a s hwas hnew =>
    -- the run came to its end, so it looked
    obtain rfl := Option.some.inj (hjob.symm.trans hwas)
    obtain ⟨r, hr, hlabel, hread⟩ := h.ended id token a s hwas
    exact absurd hread (hunread token _ rfl r hr hlabel)
  | failed token result a s hev hwas hnew =>
    obtain rfl := Option.some.inj (hjob.symm.trans hwas)
    have hleft := (hkeeps id _ token result hretried hwas rfl (hunread token result rfl)).1 hev
    exact hqueued (hnew.trans (if_pos hleft))
  | stalled token result a s hev hwas hnew =>
    obtain rfl := Option.some.inj (hjob.symm.trans hwas)
    have hleft := (hkeeps id _ token result hretried hwas rfl (hunread token result rfl)).2 hev
    exact hqueued (hnew.trans (if_pos hleft))

/-- **A retry's job, once added, is pending.** -/
lemma pending_sent {i delay : ℕ} {k : Except Err (Ans (.addPayoutJob id delay)) → Prog App Unit}
    (hr : p.live i = some r) (hp : r.prog = .ask (.addPayoutJob id delay) k) (hset : SetRetrying r id)
    (hreach : p.out.reachable = true) (hadds : AddsUnread p (.send i))
    (hs : step queueing p (.send i) = some p') : Pending p' id := by
  obtain ⟨job, hjob, hwas⟩ := added id hreach
  have hout : p'.out.jobs id = some job := by
    obtain ⟨r', q, k', hr', hp', -, rfl⟩ := step_send hs
    obtain rfl := Option.some.inj (hr.symm.trans hr')
    cases hp.symm.trans hp'
    exact hjob
  refine ⟨job, hout, fun token ended hstate => ?_⟩
  rcases hwas with hwas | hqueued
  · have hunread := hadds i r id delay k rfl hr hp hset hreach job token ended hwas hstate
    exact unread_step hunread (fun _ hev => by cases hev) hs
  · rw [hqueued] at hstate; cases hstate

/-! ### Whole runs -/

/-- Nothing runs; any jobs may wait. -/
structure Unworked (p : QueuePool) : Prop where
  runs : p.runs = []
  jobs : ∀ id job, p.out.jobs id = some job → job.state = .queued

lemma tended_start (h : Unworked p) : Tended p := by
  refine ⟨fun r hr => ?_, fun r hr => ?_, fun id token a s hjob => ?_⟩
  · rw [h.runs] at hr; cases hr
  · rw [h.runs] at hr; cases hr
  · cases h.jobs id _ hjob

/-- **No retry is swallowed**, as long as none is added while a run of the payout's job has already looked at
it, and no job of a payout to be retried is given up before a run of it has. -/
theorem no_retry_swallowed (h : Unworked p₀) :
    NoneSwallowed (fun p ev => AddsUnread p ev ∧ KeepsUnread p ev) p₀ := by
  intro p p₁ p₂ i r id delay k hreach hr hp hset hreachable hok hs hrest
  have htended : Tended p := hreach.keeps (fun _ _ _ hp _ hs => tended_step hp hs) (tended_start h)
  obtain ⟨r₁, hr₁, -, hlog⟩ := step_extends hs r (List.mem_of_getElem? (live_eq_some.mp hr).1)
  have hstart : Tended p₁ ∧ Pending p₁ id ∧ ∃ r ∈ p₁.runs, SetRetrying r id :=
    ⟨tended_step htended hs, pending_sent hr hp hset hreachable hok.1 hs, r₁, hr₁, hset.grows hlog⟩
  have hkept : Tended p₂ ∧ Pending p₂ id ∧ ∃ r ∈ p₂.runs, SetRetrying r id := by
    refine hrest.keeps (P := fun p => Tended p ∧ Pending p id ∧ ∃ r ∈ p.runs, SetRetrying r id)
      (fun q ev q' hq hok hs => ?_) hstart
    obtain ⟨htended, hpending, r, hr, hset⟩ := hq
    obtain ⟨r', hr', -, hlog⟩ := step_extends hs r hr
    exact ⟨tended_step htended hs, pending_step htended hpending ⟨r, hr, hset⟩ hok.1.2 hok.2 hs, r', hr',
      hset.grows hlog⟩
  exact hkept.2.1

/-! ### A run: the provider rejects the transfer at once -/

/-- The payout's job waits. -/
def jobWaits : QueuePool :=
  ⟨payoutDb, ⟨fun id => if id = uid 11 then some ⟨.queued, 0, 0⟩ else none, 0, true⟩, []⟩

lemma jobWaits_unworked : Unworked jobWaits := by
  refine ⟨rfl, fun id job hjob => ?_⟩
  change (if id = uid 11 then some (⟨.queued, 0, 0⟩ : PayoutJob) else none) = some job at hjob
  split at hjob
  · rw [← Option.some.inj hjob]
  · cases hjob

theorem no_retry_swallowed_sample :
    NoneSwallowed (fun p ev => AddsUnread p ev ∧ KeepsUnread p ev) jobWaits :=
  no_retry_swallowed jobWaits_unworked

def rejects : (q : Ask) → Except Err (Ans q)
  | .initiateTransfer _ => .ok ⟨.failed, some "Recipient account is closed"⟩
  | q => agreeable q

/-- The job's run hears that its transfer failed, and is about to have the retry's job added. -/
def rejectedAtOnce : List QueueEvent :=
  .start (.worker (uid 11) 0) :: execs 0 [1, 2, 3] ++ asks 0 rejects ++ execs 0 [4] ++ asks 0 rejects ++
    execs 0 [5, 6]

/-- The run ends, and the queue removes its job. -/
def endsAfterAdding : List QueueEvent := [.answer 0 agreeable, .finish 0, .move (.finished (uid 11))]

def addsFor (id : Uuid) (r : Run App QueueTask) : Bool :=
  match r.prog with
  | .ask (.addPayoutJob id' _) _ => id' == id
  | _ => false

def setsRetrying (id : Uuid) : Did App → Bool
  | .stmt (.handleTransferEventRetrying id') _ _ s' =>
    id' == id && s'.payouts.rows.any fun payout => payout.id == id && payout.status == .RETRYING
  | _ => false

lemma asks_of_addsFor (h : addsFor id r = true) : ∃ delay k, r.prog = .ask (.addPayoutJob id delay) k := by
  unfold addsFor at h
  split at h
  · rename_i id' delay k hp
    obtain rfl : id' = id := by simpa using h
    exact ⟨delay, k, hp⟩
  · cases h

lemma setRetrying_of (h : r.log.any (setsRetrying id) = true) : SetRetrying r id := by
  obtain ⟨d, hd, h⟩ := List.any_eq_true.mp h
  unfold setsRetrying at h
  split at h
  · rename_i id' w s s'
    simp only [Bool.and_eq_true, List.any_eq_true, beq_iff_eq] at h
    obtain ⟨rfl, payout, hpayout, hid, hstatus⟩ := h
    exact ⟨_, w, s, s', hd, .inr (.inl rfl), payout, hpayout, hid, hstatus⟩
  · cases h

/-- The job that the retry is added under is the one that runs; it is removed, and only the sweep is left. -/
theorem retry_swallowed : ¬NoneSwallowed anyEvent jobWaits := by
  intro hnone
  have hrun : ((run queueing jobWaits rejectedAtOnce).any fun p => p.out.reachable &&
      ((p.live 0).any fun r => addsFor (uid 11) r && r.log.any (setsRetrying (uid 11))) &&
      (step queueing p (.send 0)).any fun p₁ => (run queueing p₁ endsAfterAdding).any fun p₂ =>
        (p₂.out.jobs (uid 11)).isNone) = true := by
    decide +kernel
  obtain ⟨p, hp, h⟩ := (Option.any_eq_true _ _).mp hrun
  simp only [Bool.and_eq_true] at h
  obtain ⟨⟨hreachable, hlive⟩, hsent⟩ := h
  obtain ⟨r, hr, h⟩ := (Option.any_eq_true _ _).mp hlive
  rw [Bool.and_eq_true] at h
  obtain ⟨delay, k, hprog⟩ := asks_of_addsFor h.1
  obtain ⟨p₁, hp₁, hrest⟩ := (Option.any_eq_true _ _).mp hsent
  obtain ⟨p₂, hp₂, hgone⟩ := (Option.any_eq_true _ _).mp hrest
  have halong : Along queueing (fun p ev => anyEvent p ev ∧ NoRead (uid 11) p ev) p₁ endsAfterAdding := by
    refine along_of_all fun ev hev p => ⟨trivial, fun i hi => ?_⟩
    simp only [endsAfterAdding, List.mem_cons, List.not_mem_nil, or_false] at hev
    rcases hev with rfl | rfl | rfl <;> cases hi
  obtain ⟨job, hjob, -⟩ := hnone p p₁ p₂ 0 r (uid 11) delay k (reach_of_run (along_any _) hp) hr hprog
    (setRetrying_of h.2) hreachable trivial hp₁ (reach_of_run halong hp₂)
  rw [hjob] at hgone
  cases hgone

end Splitcore.Money
