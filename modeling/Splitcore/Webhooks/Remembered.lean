import Splitcore.Money.Services
import Splitcore.Webhooks.Watched

/-!
A stored event is never forgotten, as long as its job can still be added.

Deliveries come any number of times and in any order. Workers take jobs one at a time for each
event; what became of an attempt reaches the queue later. A job that used up its attempts stays
in the failed set, where it keeps its id from being added again.
-/

namespace Splitcore.Webhooks

open Relational Interleaving Money

/-! ### The queue -/

/-- What is under way for an event's job: the worker runs it, has ended with a result that the
queue does not know of yet, or is gone. -/
inductive Attempt where
  | running
  | ended (result : Option Err)
  | lost

abbrev Workers := Uuid → Option Attempt

/-- One attempt more; after the last one the job goes to the failed set. -/
def tried (job : WebhookJob) : WebhookJob :=
  { job with attemptsMade := job.attemptsMade + 1, failed := ATTEMPTS ≤ job.attemptsMade + 1 }

inductive QueueMove where
  /-- The queue learns how the attempt ended. A completed job is removed. -/
  | finished (id : Uuid)
  /-- The queue misses the worker: the job waits again, or is given up. -/
  | stalled (id : Uuid) (givenUp : Bool)
  /-- A failed job's age is reached. -/
  | expired (id : Uuid)
  /-- An addition that was reported as timed out takes effect. -/
  | added (id : Uuid)
  /-- The rest of the system. -/
  | others (db : Db)

def onJob (id : Uuid) (f : WebhookJob → WebhookJob) (db : Db) (x : Workers) : Option (Db × Workers) :=
  (db.webhookJobs.update (·.webhookEventId == id) f).map fun t =>
    ({ db with webhookJobs := t }, Function.update x id none)

def withoutJob (id : Uuid) (db : Db) : Db :=
  { db with webhookJobs := db.webhookJobs.delete (·.webhookEventId == id) }

def QueueMove.apply (db : Db) (x : Workers) : QueueMove → Option (Db × Workers)
  | .finished id => match x id with
    | some (.ended none) => some (withoutJob id db, Function.update x id none)
    | some (.ended (some _)) => onJob id tried db x
    | _ => none
  | .stalled id givenUp => match x id with
    | some .lost => onJob id (fun job => { job with failed := givenUp }) db x
    | _ => none
  | .expired id => if (jobOf id db).any (·.failed) then some (withoutJob id db, x) else none
  | .added id => if (statusOf id db).isSome then
      some (((db.webhookJobs.insert ⟨id, 0, false⟩).map fun t => { db with webhookJobs := t }).getD db,
        x) else none
  | .others v => some ({ v with
      webhookEvents := db.webhookEvents, webhookJobs := db.webhookJobs }, x)

/-- Deliveries, and a worker for each job that waits. -/
def webhooks (provider : WebhookProvider) : Outside App Task Workers QueueMove where
  entry := Task.program provider
  start task db x := match task with
    | .ingest _ => some x
    | .work id => if (x id).isNone && (jobOf id db).any (!·.failed) then
        some (Function.update x id (some .running)) else none
  finish task result x := match task with
    | .ingest _ => x
    | .work id => Function.update x id (some (.ended result))
  crash task x := match task with
    | .ingest _ => x
    | .work id => Function.update x id (some .lost)
  move v db x := v.apply db x

/-! ### What is claimed -/

variable {provider : WebhookProvider} {p p' : Pool App Task Workers} {ev : Event App Task QueueMove}
  {id : Uuid}

/-- A job that will still be run. -/
def LiveJob (id : Uuid) (db : Db) : Prop := ∃ job, jobOf id db = some job ∧ job.failed = false

/-- Some worker parked the event for a human. -/
def Parked (p : Pool App Task Workers) (id : Uuid) : Prop :=
  ∃ r ∈ p.runs, ∃ w s s', .stmt (.webhookParked id) w s s' ∈ r.log ∧ statusOf id s' = some .FAILED

/-- There is nothing left to do about the event by itself. -/
def Done (p : Pool App Task Workers) (id : Uuid) : Prop :=
  statusOf id p.store = some .COMPLETED ∨ Parked p id

def Kept (p : Pool App Task Workers) (id : Uuid) : Prop := Done p id ∨ LiveJob id p.store

/-- The event of the delivery is stored under this id. -/
def Stored (provider : WebhookProvider) (d : Delivery) (id : Uuid) (db : Db) : Prop :=
  ∃ e ∈ db.webhookEvents.rows, e.id = id ∧ d.eventId provider = some e.externalEventId

/-- The delivery is about to be acknowledged. -/
def Returns (p : Pool App Task Workers) (d : Delivery) : Prop :=
  ∃ i r, p.live i = some r ∧ r.label = .ingest d ∧ r.prog = .ret ()

/-- In every allowed run, an acknowledged delivery's event is completed, parked, or has a job that
will still be run. -/
def NeverForgotten (provider : WebhookProvider)
    (ok : Pool App Task Workers → Event App Task QueueMove → Prop) (p₀ : Pool App Task Workers) :
    Prop :=
  ∀ p, Reach (webhooks provider) ok p₀ p → ∀ d, Returns p d →
    ∃ id, Stored provider d id p.store ∧ Kept p id

/-- An addition does not find the event's job in the failed set. -/
def AddsAnew (p : Pool App Task Workers) (ev : Event App Task QueueMove) : Prop :=
  ∀ i, executes ev = some i → ∀ r id eff k, p.live i = some r →
    r.prog = .stmt (.webhookAdd id) eff k → ∀ job, jobOf id p.store = some job → job.failed = false

/-- The job that the event moves to the failed set. -/
def givesUp (p : Pool App Task Workers) : Event App Task QueueMove → Option Uuid
  | .move (.finished id) => match p.out id with
    | some (.ended (some _)) =>
      if (jobOf id p.store).any fun job => ATTEMPTS ≤ job.attemptsMade + 1 then some id else none
    | _ => none
  | .move (.stalled id true) => some id
  | _ => none

/-- A job is given up only while no delivery of its event, which is not completed, is about to be
acknowledged. -/
def GivesUpBefore (provider : WebhookProvider) (p : Pool App Task Workers)
    (ev : Event App Task QueueMove) : Prop :=
  ∀ id, givesUp p ev = some id → statusOf id p.store = some .COMPLETED ∨
    ∀ d, Returns p d → ¬ Stored provider d id p.store

/-! ### Jobs -/

section Jobs

variable {db : Db} {id' : Uuid}

lemma jobOf_withoutJob : jobOf id' (withoutJob id db) = if id' = id then none else jobOf id' db := by
  simp only [jobOf, withoutJob, Table.find, Table.delete, List.find?_filter]
  split
  · rename_i h
    subst h
    simp
  · rename_i h
    refine congrArg (List.find? · db.webhookJobs.rows) (funext fun job => ?_)
    by_cases hjob : job.webhookEventId = id' <;> simp [hjob, h]

lemma jobOf_update {f : WebhookJob → WebhookJob} {t : Table WebhookJob}
    (ht : db.webhookJobs.update (·.webhookEventId == id) f = some t)
    (hf : ∀ job, (f job).webhookEventId = job.webhookEventId) :
    jobOf id' { db with webhookJobs := t } =
      if id' = id then (jobOf id' db).map f else jobOf id' db := by
  rw [jobOf, jobOf, Table.find_update (fun job _ => by rw [hf]) ht]
  rcases hfind : db.webhookJobs.find (·.webhookEventId == id') with _ | job
  · simp
  · have hjob : job.webhookEventId = id' := by simpa using Table.of_find hfind
    by_cases h : id' = id <;> simp [hjob, h]

lemma jobOf_insert {t : Table WebhookJob} (ht : db.webhookJobs.insert ⟨id, 0, false⟩ = some t) :
    jobOf id db = none ∧ ∀ id', jobOf id' { db with webhookJobs := t } =
      if id' = id then some ⟨id, 0, false⟩ else jobOf id' db := by
  have hfree : jobOf id db = none := by
    rw [jobOf, Table.find_eq_none]
    intro job hjob
    by_contra hid
    have hkey : Key.id id ∈ Indexed.keys job := by simp_all [Indexed.keys]
    exact Table.insert_fresh ht hjob hkey (by simp [Indexed.keys])
  refine ⟨hfree, fun id' => ?_⟩
  rw [jobOf, Table.find, Table.rows_insert ht, List.find?_append]
  by_cases h : id' = id
  · subst h
    rw [jobOf, Table.find] at hfree
    simp [hfree]
  · have hne : ¬ id = id' := fun heq => h heq.symm
    simp [h, hne, jobOf, Table.find]

end Jobs

/-- What a move does to the job of one event, and to what is under way for it. -/
inductive MovesJob (s s' : Db) (x x' : Workers) (v : QueueMove) (id : Uuid) : Prop
  | same (hjob : jobOf id s' = jobOf id s) (hx : x' id = x id)
  | completed (hended : x id = some (.ended none)) (hjob : jobOf id s' = none) (hx : x' id = none)
  | tried (e : Err) (hv : v = .finished id) (hended : x id = some (.ended (some e)))
      (hjob : jobOf id s' = (jobOf id s).map tried) (hx : x' id = none)
  | stalled (givenUp : Bool) (hv : v = .stalled id givenUp) (hlost : x id = some .lost)
      (hjob : jobOf id s' = (jobOf id s).map fun job => { job with failed := givenUp })
      (hx : x' id = none)
  | expired (hfailed : (jobOf id s).any (·.failed) = true) (hjob : jobOf id s' = none)
      (hx : x' id = x id)
  | added (hfree : jobOf id s = none) (hstored : statusOf id s ≠ none)
      (hjob : jobOf id s' = some ⟨id, 0, false⟩) (hx : x' id = x id)

/-- **What a move does.** -/
theorem move_cases {v : QueueMove} {s s' : Db} {x x' : Workers} (h : v.apply s x = some (s', x')) :
    s'.webhookEvents = s.webhookEvents ∧ ∀ id, MovesJob s s' x x' v id := by
  cases v with
  | finished id' =>
    simp only [QueueMove.apply] at h
    split at h
    · rename_i hended
      cases h
      refine ⟨rfl, fun id => ?_⟩
      by_cases hid : id = id'
      · subst hid; exact .completed hended (by rw [jobOf_withoutJob, if_pos rfl]) (by simp)
      · exact .same (by rw [jobOf_withoutJob, if_neg hid]) (by simp [hid])
    · rename_i e hended
      obtain ⟨t, ht, heq⟩ := Option.map_eq_some_iff.mp h
      cases heq
      refine ⟨rfl, fun id => ?_⟩
      by_cases hid : id = id'
      · subst hid
        exact .tried e rfl hended (by rw [jobOf_update ht fun _ => rfl, if_pos rfl]) (by simp)
      · exact .same (by rw [jobOf_update ht fun _ => rfl, if_neg hid]) (by simp [hid])
    · cases h
  | stalled id' givenUp =>
    simp only [QueueMove.apply] at h
    split at h
    · rename_i hlost
      obtain ⟨t, ht, heq⟩ := Option.map_eq_some_iff.mp h
      cases heq
      refine ⟨rfl, fun id => ?_⟩
      by_cases hid : id = id'
      · subst hid
        exact .stalled givenUp rfl hlost (by rw [jobOf_update ht fun _ => rfl, if_pos rfl]) (by simp)
      · exact .same (by rw [jobOf_update ht fun _ => rfl, if_neg hid]) (by simp [hid])
    · cases h
  | expired id' =>
    simp only [QueueMove.apply] at h
    split at h
    · rename_i hfailed
      cases h
      refine ⟨rfl, fun id => ?_⟩
      by_cases hid : id = id'
      · subst hid; exact .expired hfailed (by rw [jobOf_withoutJob, if_pos rfl]) rfl
      · exact .same (by rw [jobOf_withoutJob, if_neg hid]) rfl
    · cases h
  | added id' =>
    simp only [QueueMove.apply] at h
    split at h
    · rename_i hstored
      cases h
      rcases ht : s.webhookJobs.insert ⟨id', 0, false⟩ with _ | t
      · exact ⟨rfl, fun id => .same rfl rfl⟩
      · obtain ⟨hfree, hjob⟩ := jobOf_insert ht
        refine ⟨rfl, fun id => ?_⟩
        by_cases hid : id = id'
        · subst hid
          exact .added hfree (Option.isSome_iff_ne_none.mp hstored) ((hjob id).trans (if_pos rfl)) rfl
        · exact .same ((hjob id).trans (if_neg hid)) rfl
    · cases h
  | others v =>
    simp only [QueueMove.apply, Option.some.injEq, Prod.mk.injEq] at h
    obtain ⟨rfl, rfl⟩ := h
    exact ⟨rfl, fun id => .same rfl rfl⟩

/-! ### The invariant -/

lemma at_task (r : Run App Task) : ((attending provider).at_ r).task = r.label :=
  Monitor.at_log (M := attending provider) (P := fun g _ => Progress.task g = r.label) r rfl
    fun g _ d hg => (Progress.next_task g d).trans hg

/-- Tasks keep to the monitor. Each job is an event's; at most one worker is on it, and while one
is, the job stays. A worker knows whether its event is completed, and so does the queue once the
worker ended. A delivery knows its event, and whoever is about to acknowledge it may. -/
structure Minded (provider : WebhookProvider) (p : Pool App Task Workers) : Prop where
  watched : (attending provider).WatchesAll p
  stored : ∀ id, jobOf id p.store ≠ none → statusOf id p.store ≠ none
  single : ∀ i j r r' id, p.live i = some r → p.live j = some r' → r.label = .work id →
    r'.label = .work id → i = j
  running : ∀ i r id, p.live i = some r → r.label = .work id → p.out id = some .running
  held : ∀ id, p.out id ≠ none → LiveJob id p.store
  unfinished : ∀ i r id, p.live i = some r → r.label = .work id →
    ((attending provider).at_ r).unfinished = true → statusOf id p.store ≠ some .COMPLETED
  done : ∀ i r id, p.live i = some r → r.label = .work id →
    ((attending provider).at_ r).done = true → Done p id
  ended : ∀ id, p.out id = some (.ended none) → Done p id
  known : ∀ i r d id, p.live i = some r → r.label = .ingest d →
    ((attending provider).at_ r).event = some id → Stored provider d id p.store
  returns : ∀ i r d id, p.live i = some r → r.label = .ingest d → r.prog = .ret () →
    ((attending provider).at_ r).event = some id → Kept p id

lemma Stored.keeps {d : Delivery} {s s' : Db} (h : Stored provider d id s) (hk : KeepsEvents s s') :
    Stored provider d id s' := by
  obtain ⟨e, he, hid, hext⟩ := h
  obtain ⟨e', he', hid', hext'⟩ := hk e he
  exact ⟨e', he', hid'.trans hid, hext.trans (by rw [hext'])⟩

lemma Minded.forgets_nothing (h : Minded provider p) {d : Delivery} (hd : Returns p d) :
    ∃ id, Stored provider d id p.store ∧ Kept p id := by
  obtain ⟨i, r, hr, hlabel, hret⟩ := hd
  have hpost := (h.watched r (Monitor.mem_of_live hr)).of_ret hret
  have htask : ((attending provider).at_ r).task = .ingest d := (at_task r).trans hlabel
  simp only [attending] at hpost htask
  rw [htask] at hpost
  obtain ⟨id, hevent⟩ := Option.ne_none_iff_exists'.mp hpost.2
  exact ⟨id, h.known i r d id hr hlabel hevent, h.returns i r d id hr hlabel hret hevent⟩

/-! ### One event -/

section Step

variable (h : Minded provider p) (hs : step (webhooks provider) p ev = some p')
include h

/-- The event of a worker's job is stored. -/
lemma Minded.rely (i : ℕ) (r : Run App Task) (hr : p.live i = some r) (nm : Site) :
    (attending provider).rely ((attending provider).at_ r) nm p.store := by
  intro id htask
  have hlabel : r.label = .work id := (at_task r).symm.trans htask
  obtain ⟨job, hjob, -⟩ := h.held id (by rw [h.running i r id hr hlabel]; nofun)
  exact h.stored id (by rw [hjob]; nofun)

lemma Minded.relies : (attending provider).Relies p ev := by
  cases ev <;> first
    | trivial
    | exact fun r nm eff k hr hp => h.rely _ r hr nm

lemma Minded.guar_of {i : ℕ} {r : Run App Task} {nm : Site} {w : Input} (hr : p.live i = some r)
    (hex : Executes p p' r nm w) :
    (attending provider).guar ((attending provider).at_ r) nm w p.store p'.store :=
  h.watched.guar_of hr hex (h.rely i r hr nm)

include hs

/-- What the event did to the store. -/
lemma Minded.store :
    (∃ i r site w, executes ev = some i ∧ Monitor.Executed (attending provider) p p' i r site w) ∨
    executes ev = none ∧ p'.store = p.store ∨
    ∃ v, ev = .move v ∧ p'.store.webhookEvents = p.store.webhookEvents ∧
      ∀ id, MovesJob p.store p'.store p.out p'.out v id := by
  rcases h.watched.step_store h.relies hs with hdone | hsame | ⟨v, hv, hm⟩
  · exact .inl hdone
  · exact .inr (.inl hsame)
  · exact .inr (.inr ⟨v, hv, move_cases hm⟩)

lemma Minded.keeps : KeepsEvents p.store p'.store := by
  rcases h.store hs with ⟨i, r, site, w, -, hdone⟩ | ⟨-, hstore⟩ | ⟨v, -, hevents, -⟩
  · exact hdone.guar.2.2.keeps
  · rw [hstore]; exact .of_eq rfl
  · exact .of_eq hevents

/-- Only the worker of an event that is not completed writes its status. -/
lemma Minded.status (id : Uuid) (hid : statusOf id p.store ≠ none) :
    statusOf id p'.store = statusOf id p.store ∨ ∃ i r, executes ev = some i ∧ p.live i = some r ∧
      r.label = .work id ∧ statusOf id p.store ≠ some .COMPLETED := by
  rcases h.store hs with ⟨i, r, site, w, hev, hdone⟩ | ⟨-, hstore⟩ | ⟨v, -, hevents, -⟩
  · rcases hdone.guar.2.2.status id with hsame | hnone | ⟨hwrites, hunfinished⟩
    · exact .inl hsame
    · exact absurd hnone hid
    · have hlabel : r.label = .work id := by
        rw [← show ((attending provider).at_ r).task = r.label from at_task r]
        exact owner_of_writes hdone.guar.2.1 hwrites
      exact .inr ⟨i, r, hev, hdone.live, hlabel, h.unfinished i r id hdone.live hlabel hunfinished⟩
  · exact .inl (by rw [hstore])
  · exact .inl (by rw [statusOf, hevents, statusOf])

/-- What is done stays done. -/
lemma Minded.done_step (id : Uuid) (hdone : Done p id) : Done p' id := by
  rcases hdone with hcompleted | ⟨r, hr, w, s, s', hlog, hstatus⟩
  · rcases h.status hs id (by rw [hcompleted]; nofun) with hsame | ⟨i, r, -, -, -, hopen⟩
    · exact .inl (hsame.trans hcompleted)
    · exact absurd hcompleted hopen
  · obtain ⟨r', hr', -, hpre⟩ := step_extends hs r hr
    exact .inr ⟨r', hr', w, s, s', hpre.subset hlog, hstatus⟩

/-- A job leaves the queue when its event is done, or is given up. -/
lemma Minded.live_step (id : Uuid) (hlive : LiveJob id p.store) :
    LiveJob id p'.store ∨ Done p id ∧ p'.out id = none ∨ givesUp p ev = some id ∧ p'.out id = none := by
  obtain ⟨job, hjob, hfailed⟩ := hlive
  rcases h.store hs with ⟨i, r, site, w, -, hdone⟩ | ⟨-, hstore⟩ | ⟨v, rfl, -, hmoves⟩
  · rcases hdone.guar.2.2.job id with hsame | ⟨hnone, -⟩
    · exact .inl ⟨job, hsame.trans hjob, hfailed⟩
    · rw [hjob] at hnone; cases hnone
  · rw [hstore]; exact .inl ⟨job, hjob, hfailed⟩
  · cases hmoves id with
    | same hsame => exact .inl ⟨job, hsame.trans hjob, hfailed⟩
    | completed hended hjob' hx => exact .inr (.inl ⟨h.ended id hended, hx⟩)
    | tried e hv hended hjob' hx =>
      subst hv
      rw [hjob, Option.map_some] at hjob'
      by_cases hlast : ATTEMPTS ≤ job.attemptsMade + 1
      · refine .inr (.inr ⟨?_, hx⟩)
        simp [givesUp, hended, hjob, hlast]
      · exact .inl ⟨_, hjob', by simpa [Webhooks.tried] using hlast⟩
    | stalled givenUp hv hlost hjob' hx =>
      subst hv
      rw [hjob, Option.map_some] at hjob'
      cases givenUp with
      | true => exact .inr (.inr ⟨rfl, hx⟩)
      | false => exact .inl ⟨_, hjob', rfl⟩
    | expired hfail =>
      rw [hjob] at hfail
      simp [hfailed] at hfail
    | added hfree => rw [hjob] at hfree; cases hfree

/-- What is under way for a job is what its worker and the queue make of it. -/
inductive MovesOut (p p' : Pool App Task Workers) (ev : Event App Task QueueMove) (id : Uuid) : Prop
  | same (hx : p'.out id = p.out id)
  | taken (hfree : p.out id = none) (hjob : LiveJob id p.store) (hx : p'.out id = some .running)
  | ended (i : ℕ) (r : Run App Task) (result : Option Err) (hev : ev = .finish i)
      (hr : p.live i = some r) (hlabel : r.label = .work id)
      (hret : result = none → r.prog = .ret ()) (hx : p'.out id = some (.ended result))
  | lost (i : ℕ) (r : Run App Task) (hev : ev = .crash i) (hr : p.live i = some r)
      (hlabel : r.label = .work id) (hx : p'.out id = some .lost)
  | freed (hnot : p.out id ≠ some .running) (hx : p'.out id = none)

omit h in
lemma out_cases (id : Uuid) : MovesOut p p' ev id := by
  cases ev with
  | start task =>
    obtain ⟨x, hx, rfl⟩ := step_start hs
    cases task with
    | ingest d =>
      cases hx; exact .same rfl
    | work id' =>
      simp only [webhooks] at hx
      split at hx
      · rename_i hfree
        cases hx
        rw [Bool.and_eq_true, Option.isNone_iff_eq_none, Option.any_eq_true] at hfree
        obtain ⟨hfree, job, hjob, hfailed⟩ := hfree
        by_cases hid : id = id'
        · subst hid
          exact .taken hfree ⟨job, hjob, by simpa using hfailed⟩ (by simp)
        · exact .same (by simp [hid])
      · cases hx
  | exec i w => obtain ⟨r, nm, eff, k, -, -, rfl⟩ := step_exec hs; exact .same rfl
  | lost i w e => obtain ⟨r, nm, eff, k, -, -, rfl⟩ := step_lost hs; exact .same rfl
  | fail i e => obtain ⟨r, nm, eff, k, -, -, rfl⟩ := step_fail hs; exact .same rfl
  | send i => obtain ⟨r, q, k, -, -, -, rfl⟩ := step_send hs; exact .same rfl
  | answer i o => obtain ⟨r, q, k, -, -, -, -, rfl⟩ := step_answer hs; exact .same rfl
  | finish i =>
    obtain ⟨r, result, hr, hprog, rfl⟩ := step_finish hs
    cases hlabel : r.label with
    | ingest d => exact .same (by simp [webhooks])
    | work id' =>
      by_cases hid : id = id'
      · subst hid
        refine .ended i r result rfl hr hlabel (fun hnone => ?_) (by simp [webhooks])
        rcases hprog with ⟨hret, -⟩ | ⟨e, -, hsome⟩
        · exact hret
        · rw [hsome] at hnone; cases hnone
      · exact .same (by simp [webhooks, hid])
  | crash i =>
    obtain ⟨r, hr, rfl⟩ := step_crash hs
    cases hlabel : r.label with
    | ingest d => exact .same (by simp [webhooks])
    | work id' =>
      by_cases hid : id = id'
      · subst hid; exact .lost i r rfl hr hlabel (by simp [webhooks])
      · exact .same (by simp [webhooks, hid])
  | move v =>
    obtain ⟨s, x, hm, rfl⟩ := step_move hs
    cases (move_cases hm).2 id with
    | same hjob hx => exact .same hx
    | completed hended hjob hx => exact .freed (by rw [hended]; nofun) hx
    | tried e hv hended hjob hx => exact .freed (by rw [hended]; nofun) hx
    | stalled givenUp hv hlost hjob hx => exact .freed (by rw [hlost]; nofun) hx
    | expired hfailed hjob hx => exact .same hx
    | added hfree hstored hjob hx => exact .same hx

/-! ### What one event keeps -/

lemma Minded.stored_step (id : Uuid) (hjob : jobOf id p'.store ≠ none) :
    statusOf id p'.store ≠ none := by
  rcases h.store hs with ⟨i, r, site, w, hev, hdone⟩ | ⟨-, hstore⟩ | ⟨v, rfl, hevents, hmoves⟩
  · refine (h.keeps hs).statusOf ?_
    rcases hdone.guar.2.2.job id with hsame | ⟨-, -, rfl⟩
    · exact h.stored id (hsame ▸ hjob)
    · obtain ⟨⟨d, htask⟩, hevent⟩ := hdone.guar.2.1
      obtain ⟨e, he, hid, -⟩ := h.known i r d id hdone.live ((at_task r).symm.trans htask) hevent
      exact statusOf_ne_none.mpr ⟨e, he, hid⟩
  · rw [hstore] at hjob ⊢; exact h.stored id hjob
  · rw [statusOf, hevents]
    cases hmoves id with
    | same hsame => exact h.stored id (hsame ▸ hjob)
    | completed hended hnone => exact absurd hnone hjob
    | tried e hv hended hmap => exact h.stored id fun hnone => hjob (by rw [hmap, hnone]; rfl)
    | stalled givenUp hv hlost hmap => exact h.stored id fun hnone => hjob (by rw [hmap, hnone]; rfl)
    | expired hfailed hnone => exact absurd hnone hjob
    | added hfree hstored => exact hstored

lemma Minded.held_step (id : Uuid) (hx : p'.out id ≠ none) : LiveJob id p'.store := by
  have hlive : LiveJob id p.store := by
    cases out_cases hs id with
    | same heq => exact h.held id (heq ▸ hx)
    | taken hfree hjob => exact hjob
    | ended i r result hev hr hlabel => exact h.held id (by rw [h.running i r id hr hlabel]; nofun)
    | lost i r hev hr hlabel => exact h.held id (by rw [h.running i r id hr hlabel]; nofun)
    | freed hnot hnone => exact absurd hnone hx
  rcases h.live_step hs id hlive with hlive' | ⟨-, hnone⟩ | ⟨-, hnone⟩
  · exact hlive'
  · exact absurd hnone hx
  · exact absurd hnone hx

/-- A worker under way was under way, or was just started on a job nobody was on. -/
lemma Minded.worker_step {j : ℕ} {r' : Run App Task} (hr' : p'.live j = some r')
    (hlabel : r'.label = .work id) : p'.out id = some .running ∧
      ((∃ r, p.live j = some r ∧ r.label = .work id) ∨ p.out id = none ∧ j = p.runs.length) := by
  have hold : ∀ r, p.live j = some r → r.label = .work id → p'.out id = some .running := by
    intro r hr hwork
    have hrunning := h.running j r id hr hwork
    cases out_cases hs id with
    | same heq => rw [heq]; exact hrunning
    | taken hfree hjob hx => exact hx
    | ended i r₀ result hev hr₀ hwork₀ =>
      obtain rfl := h.single i j r₀ r id hr₀ hr hwork₀ hwork
      subst hev
      rw [live_finish hs] at hr'; cases hr'
    | lost i r₀ hev hr₀ hwork₀ =>
      obtain rfl := h.single i j r₀ r id hr₀ hr hwork₀ hwork
      subst hev
      rw [live_crash hs] at hr'; cases hr'
    | freed hnot => exact absurd hrunning hnot
  rw [live_eq_some] at hr'
  rcases step_run hs hr'.1 with ⟨hsame, -⟩ | ⟨task, rfl, hj, rfl⟩ | ⟨r, ds, hr, hgoes, -⟩
  · have hr : p.live j = some r' := live_eq_some.mpr ⟨hsame, hr'.2⟩
    exact ⟨hold r' hr hlabel, .inl ⟨r', hr, hlabel⟩⟩
  · obtain rfl : task = .work id := hlabel
    cases out_cases hs id with
    | same heq =>
      obtain ⟨x, hx, rfl⟩ := step_start hs
      simp only [webhooks] at hx
      split at hx
      · rename_i hfree
        rw [Bool.and_eq_true, Option.isNone_iff_eq_none] at hfree
        cases hx
        exact ⟨by simp, .inr ⟨hfree.1, hj⟩⟩
      · cases hx
    | taken hfree hjob hx => exact ⟨hx, .inr ⟨hfree, hj⟩⟩
    | ended i r₀ result hev => cases hev
    | lost i r₀ hev => cases hev
    | freed hnot hx =>
      obtain ⟨x, hx', rfl⟩ := step_start hs
      simp only [webhooks] at hx'
      split at hx'
      · cases hx'; simp at hx
      · cases hx'
  · have hwork := hgoes.label.symm.trans hlabel
    exact ⟨hold r hr hwork, .inl ⟨r, hr, hwork⟩⟩

lemma Minded.single_step (i j : ℕ) (r r' : Run App Task) (id : Uuid) (hi : p'.live i = some r)
    (hj : p'.live j = some r') (hr : r.label = .work id) (hr' : r'.label = .work id) : i = j := by
  rcases (h.worker_step hs hi hr).2 with ⟨a, ha, hwa⟩ | ⟨hfree, hnew⟩ <;>
    rcases (h.worker_step hs hj hr').2 with ⟨b, hb, hwb⟩ | ⟨hfree', hnew'⟩
  · exact h.single i j a b id ha hb hwa hwb
  · rw [h.running i a id ha hwa] at hfree'; cases hfree'
  · rw [h.running j b id hb hwb] at hfree; cases hfree
  · rw [hnew, hnew']

lemma Minded.ended_step (id : Uuid) (hx : p'.out id = some (.ended none)) : Done p' id := by
  refine h.done_step hs id ?_
  cases out_cases hs id with
  | same heq => exact h.ended id (heq ▸ hx)
  | taken hfree hjob hx' => rw [hx'] at hx; cases hx
  | ended i r result hev hr hlabel hret hx' =>
    rw [hx'] at hx
    obtain rfl : result = none := by simpa using hx
    have hpost := (h.watched r (Monitor.mem_of_live hr)).of_ret (hret rfl)
    have htask : ((attending provider).at_ r).task = .work id := (at_task r).trans hlabel
    simp only [attending] at hpost htask
    rw [htask] at hpost
    exact h.done i r id hr hlabel hpost
  | lost i r hev hr hlabel hx' => rw [hx'] at hx; cases hx
  | freed hnot hx' => rw [hx'] at hx; cases hx

/-- What a worker knows of its event, after what it did. -/
lemma Minded.worker_knows (j : ℕ) (r' : Run App Task) (id : Uuid) (hr' : p'.live j = some r')
    (hlabel : r'.label = .work id) :
    (((attending provider).at_ r').unfinished = true → statusOf id p'.store ≠ some .COMPLETED) ∧
    (((attending provider).at_ r').done = true → Done p' id) := by
  have hlive := live_eq_some.mp hr'
  rcases step_run hs hlive.1 with ⟨hsame, hnot⟩ | ⟨task, -, -, rfl⟩ | ⟨r, ds, hr, hgoes, hadds⟩
  · have hr : p.live j = some r' := live_eq_some.mpr ⟨hsame, hlive.2⟩
    refine ⟨fun hunfinished => ?_, fun hdone => h.done_step hs id (h.done j r' id hr hlabel hdone)⟩
    -- nobody else writes the status
    obtain ⟨job, hjob, -⟩ := h.held id (by rw [h.running j r' id hr hlabel]; nofun)
    rcases h.status hs id (h.stored id (by rw [hjob]; nofun)) with heq | ⟨i, r, hev, hi, hwork, -⟩
    · rw [heq]; exact h.unfinished j r' id hr hlabel hunfinished
    · rw [h.single i j r r' id hi hr hwork hlabel] at hev
      exact absurd hev hnot
  · exact ⟨nofun, nofun⟩
  have hwork : r.label = .work id := hgoes.label.symm.trans hlabel
  have htask : ((attending provider).at_ r).task = .work id := (at_task r).trans hwork
  have hbefore := h.unfinished j r id hr hwork
  have hdone := fun hd => h.done_step hs id (h.done j r id hr hwork hd)
  obtain ⟨job, hjob, -⟩ := h.held id (by rw [h.running j r id hr hwork]; nofun)
  have hrow := h.stored id (by rw [hjob]; nofun)
  rw [Monitor.at_continues hgoes]
  cases hadds with
  | stmt nm w hev hex =>
    have hguar := h.guar_of hr hex
    refine ⟨fun hu => unfinished_next htask hguar.2.1 hguar.2.2 hrow hbefore hu, fun hd => ?_⟩
    rcases done_next htask hguar.2.1 hd with hd' | hcompleted | ⟨rfl, hfailed⟩
    · exact hdone hd'
    · exact .inl hcompleted
    · refine .inr ⟨r', List.mem_of_getElem? hlive.1, w, p.store, p'.store, ?_, hfailed⟩
      rw [hgoes.log]; simp
  | lost nm w e hev hex =>
    have hguar := h.guar_of hr hex
    exact ⟨fun hu => unfinished_next htask hguar.2.1 hguar.2.2 hrow hbefore hu, nofun⟩
  | failed hstore nm e => exact ⟨fun hu => by rw [hstore]; exact hbefore hu, nofun⟩
  | asked hstore q k hp ha => exact ⟨fun hu => by rw [hstore]; exact hbefore hu, hdone⟩
  | answered hstore q k hp a => exact ⟨fun hu => by rw [hstore]; exact hbefore hu, hdone⟩
  | nothing hstore => rw [hgoes.gone rfl] at hlive; cases hlive.2

/-- What a delivery knows of its event, after what it did. -/
lemma Minded.known_step (j : ℕ) (r' : Run App Task) (d : Delivery) (id : Uuid)
    (hr' : p'.live j = some r') (hlabel : r'.label = .ingest d)
    (hevent : ((attending provider).at_ r').event = some id) : Stored provider d id p'.store := by
  have hkeeps := h.keeps hs
  rw [live_eq_some] at hr'
  rcases step_run hs hr'.1 with ⟨hsame, -⟩ | ⟨task, -, -, rfl⟩ | ⟨r, ds, hr, hgoes, hadds⟩
  · exact (h.known j r' d id (live_eq_some.mpr ⟨hsame, hr'.2⟩) hlabel hevent).keeps hkeeps
  · cases hevent
  have hingest : r.label = .ingest d := hgoes.label.symm.trans hlabel
  have hbefore : ((attending provider).at_ r).event = some id → Stored provider d id p'.store :=
    fun hknown => (h.known j r d id hr hingest hknown).keeps hkeeps
  have hstmt : ∀ {nm w}, Executes p p' r nm w →
      (((attending provider).at_ r).next (.stmt nm w p.store p'.store)).event = some id →
      Stored provider d id p'.store := by
    intro nm w hex hnext
    have htask : ((attending provider).at_ r).task = .ingest d := (at_task r).trans hingest
    rcases event_next htask (h.guar_of hr hex).2.1 hnext with hknown | ⟨ext, hext, hid⟩
    · exact hbefore hknown
    · obtain ⟨e, hfind, rfl⟩ := Option.map_eq_some_iff.mp hid
      have he : e.externalEventId = ext := by simpa using Table.of_find hfind
      exact ⟨e, Table.mem_of_find hfind, rfl, hext.trans (by rw [he])⟩
  rw [Monitor.at_continues hgoes] at hevent
  cases hadds with
  | stmt nm w hev hex => exact hstmt hex hevent
  | lost nm w e hev hex => exact hstmt hex hevent
  | _ => exact hbefore hevent

omit hs in
/-- A delivery is not through before its last statement. -/
lemma Minded.not_through {j : ℕ} {r : Run App Task} {q : Ask}
    {k : Except Err (Ans q) → Prog App Unit} (hr : p.live j = some r) (hp : r.prog = .ask q k) :
    ((attending provider).at_ r).through = false := by
  obtain ⟨g, hquery, hg | hg⟩ := (h.watched r (Monitor.mem_of_live hr)).asks hp
  · rw [hg]; exact hquery
  · rw [hg]; exact hquery

/-- **What a delivery that is about to be acknowledged leaves behind.** -/
lemma Minded.returns_step (hadds : AddsAnew p ev) (hgives : GivesUpBefore provider p ev)
    (hwatched : (attending provider).WatchesAll p') (j : ℕ) (r' : Run App Task) (d : Delivery)
    (id : Uuid) (hr' : p'.live j = some r') (hlabel : r'.label = .ingest d)
    (hret : r'.prog = .ret ()) (hevent : ((attending provider).at_ r').event = some id) :
    Kept p' id := by
  have hlive := live_eq_some.mp hr'
  rcases step_run hs hlive.1 with ⟨hsame, -⟩ | ⟨task, -, -, rfl⟩ | ⟨r, ds, hr, hgoes, hds⟩
  · -- it has nothing left to do, and the others do not undo it
    have hr : p.live j = some r' := live_eq_some.mpr ⟨hsame, hlive.2⟩
    rcases h.returns j r' d id hr hlabel hret hevent with hdone | hjob
    · exact .inl (h.done_step hs id hdone)
    rcases h.live_step hs id hjob with hjob' | ⟨hdone, -⟩ | ⟨hup, -⟩
    · exact .inr hjob'
    · exact .inl (h.done_step hs id hdone)
    · rcases hgives id hup with hcompleted | hnone
      · exact .inl (h.done_step hs id (.inl hcompleted))
      · exact absurd (h.known j r' d id hr hlabel hevent) (hnone d ⟨j, r', hr, hlabel, hret⟩)
  · cases hevent
  have htask : ((attending provider).at_ r').task = .ingest d := (at_task r').trans hlabel
  have hpost := (hwatched r' (List.mem_of_getElem? hlive.1)).of_ret hret
  simp only [attending] at hpost htask
  rw [htask] at hpost
  have hthrough : ((attending provider).at_ r').through = true := hpost.1
  rw [Monitor.at_continues hgoes] at hevent hthrough
  cases hds with
  | stmt nm w hev hex =>
    have hguar := h.guar_of hr hex
    rcases through_next hguar.2.1 hguar.1 hevent hthrough with hcompleted | ⟨rfl, hjob⟩
    · exact .inl (.inl hcompleted)
    · rcases hguar.2.2.job id with hsame | ⟨-, hnew, -⟩
      · obtain ⟨job, hjob⟩ := Option.ne_none_iff_exists'.mp hjob
        obtain ⟨eff, k, hp, -⟩ := hex
        exact .inr ⟨job, hjob, hadds j hev r id eff k hr hp job (hsame ▸ hjob)⟩
      · exact .inr ⟨_, hnew, rfl⟩
  | lost nm w e hev hex => cases hthrough
  | failed hstore nm e => cases hthrough
  | asked hstore q k hp ha =>
    exact absurd ((h.not_through hr hp).symm.trans hthrough) Bool.false_ne_true
  | answered hstore q k hp a =>
    exact absurd ((h.not_through hr hp).symm.trans hthrough) Bool.false_ne_true
  | nothing hstore => rw [hgoes.gone rfl] at hlive; cases hlive.2

/-- **One event keeps the invariant.** -/
theorem minded_step (hadds : AddsAnew p ev) (hgives : GivesUpBefore provider p ev) :
    Minded provider p' := by
  have hwatched : (attending provider).WatchesAll p' :=
    Monitor.watchesAll_step h.watched (fun task _ _ => program_attends provider task) h.relies hs
  exact
    { watched := hwatched
      stored := h.stored_step hs
      single := h.single_step hs
      running := fun i r id hr hlabel => (h.worker_step hs hr hlabel).1
      held := h.held_step hs
      unfinished := fun i r id hr hlabel => (h.worker_knows hs i r id hr hlabel).1
      done := fun i r id hr hlabel => (h.worker_knows hs i r id hr hlabel).2
      ended := h.ended_step hs
      known := h.known_step hs
      returns := h.returns_step hs hadds hgives hwatched }

end Step

/-! ### Whole runs -/

/-- Nothing is under way, and every job is a stored event's. -/
structure AtRest (p : Pool App Task Workers) : Prop where
  runs : p.runs = []
  out : ∀ id, p.out id = none
  stored : ∀ job ∈ p.store.webhookJobs.rows,
    ∃ e ∈ p.store.webhookEvents.rows, e.id = job.webhookEventId

lemma minded_start (h : AtRest p) : Minded provider p := by
  have hnone : ∀ i, p.live i = none := fun i => by simp [Pool.live, h.runs]
  refine
    { watched := fun r hr => by rw [h.runs] at hr; cases hr
      stored := fun id hjob => ?_
      single := fun i j r r' id hr => by rw [hnone] at hr; cases hr
      running := fun i r id hr => by rw [hnone] at hr; cases hr
      held := fun id hx => absurd (h.out id) hx
      unfinished := fun i r id hr => by rw [hnone] at hr; cases hr
      done := fun i r id hr => by rw [hnone] at hr; cases hr
      ended := fun id hx => by rw [h.out] at hx; cases hx
      known := fun i r d id hr => by rw [hnone] at hr; cases hr
      returns := fun i r d id hr => by rw [hnone] at hr; cases hr }
  obtain ⟨job, hjob⟩ := Option.ne_none_iff_exists'.mp hjob
  obtain ⟨e, he, hid⟩ := h.stored job (Table.mem_of_find hjob)
  have hjobId : job.webhookEventId = id := by simpa using Table.of_find hjob
  exact statusOf_ne_none.mpr ⟨e, he, hid.trans hjobId⟩

/-- **An acknowledged event is never forgotten**, as long as no delivery finds its job in the failed
set, and no job is given up between a delivery's addition and its acknowledgement. -/
theorem never_forgotten (provider : WebhookProvider) (h : AtRest p) : NeverForgotten provider
    (fun p ev => AddsAnew p ev ∧ GivesUpBefore provider p ev) p := by
  intro p' hreach d hd
  have hminded : Minded provider p' := hreach.keeps
    (fun _ _ _ hp hok hs => minded_step hp hs hok.1 hok.2) (minded_start h)
  exact hminded.forgets_nothing hd

/-! ### A run: every attempt failed, and the provider delivers again -/

def paystack : WebhookProvider := ⟨"paystack", fun _ _ => true⟩

def charge : Delivery :=
  ⟨[], some "signature", .obj [("event", .str "charge.success"),
    ("data", .obj [("id", .num "1"), ("reference", .str "pay_1")])]⟩

/-- A payment waits to be settled; nothing was delivered. -/
def undelivered : Pool App Task Workers := ⟨sampleDb, fun _ => none, []⟩

lemma undelivered_atRest : AtRest undelivered :=
  ⟨rfl, fun _ => rfl, nofun⟩

theorem never_forgotten_sample : NeverForgotten paystack
    (fun p ev => AddsAnew p ev ∧ GivesUpBefore paystack p ev) undelivered :=
  never_forgotten paystack undelivered_atRest

/-- The provider cannot be reached. -/
def unreachable : (q : Ask) → Except Err (Ans q) := fun _ => .error (.outside "ETIMEDOUT")

/-- Run `i` is an attempt that fails, and the queue learns of it. -/
def failedAttempt (i : ℕ) : List (Event App Task QueueMove) :=
  .start (.work (uid 1000)) :: execs i [2, 3, 4] ++ asks i unreachable ++ execs i [5] ++
    [.finish i, .move (.finished (uid 1000))]

/-- The delivery is acknowledged, all attempts fail, and the same event is delivered again. -/
def deliveredAgain : List (Event App Task QueueMove) :=
  .start (.ingest charge) :: execs 0 [1, 1] ++ .finish 0 ::
    (List.range ATTEMPTS).flatMap (fun k => failedAttempt (k + 1)) ++
    .start (.ingest charge) :: execs 6 [6, 7, 8]

def parks : Did App → Bool
  | .stmt (.webhookParked _) _ _ _ => true
  | _ => false

/-- No worker parked anything, and every event is neither completed nor has a job left to run. -/
def allForgotten (p : Pool App Task Workers) : Bool :=
  (p.runs.all fun r => r.log.all (!parks ·)) && p.store.webhookEvents.rows.all fun e =>
    statusOf e.id p.store != some .COMPLETED && (jobOf e.id p.store).all (·.failed)

lemma not_kept (h : allForgotten p = true) {d : Delivery} (hid : Stored provider d id p.store) :
    ¬ Kept p id := by
  simp only [allForgotten, Bool.and_eq_true, List.all_eq_true, bne_iff_ne, Bool.not_eq_true'] at h
  obtain ⟨hparked, hevents⟩ := h
  obtain ⟨e, he, rfl, -⟩ := hid
  rintro ((hcompleted | ⟨r, hr, w, s, s', hlog, -⟩) | ⟨job, hjob, hfailed⟩)
  · exact (hevents e he).1 hcompleted
  · exact absurd (hparked r hr _ hlog) (by simp [parks])
  · have := (hevents e he).2
    rw [hjob, Option.all_some, hfailed] at this
    cases this

/-- A delivery, about to be acknowledged. -/
def acknowledges (r : Run App Task) : Bool :=
  match r.label, r.prog with
  | .ingest _, .ret _ => true
  | _, _ => false

lemma returns_of {i : ℕ} (h : (p.live i).any acknowledges = true) : ∃ d, Returns p d := by
  obtain ⟨r, hr, h⟩ := (Option.any_eq_true _ _).mp h
  unfold acknowledges at h
  split at h
  · rename_i d _ hlabel hret
    exact ⟨d, i, r, hr, hlabel, hret⟩
  · cases h

/-- The event, delivered again while its job sits in the failed set, is acknowledged as a
duplicate; nothing will process it. -/
theorem delivered_again_forgotten :
    ¬ NeverForgotten paystack anyEvent undelivered := by
  intro hnever
  have hrun : ((run (webhooks paystack) undelivered deliveredAgain).any fun p =>
      allForgotten p && (p.live 6).any acknowledges) = true := by
    decide +kernel
  obtain ⟨p, hp, h⟩ := (Option.any_eq_true _ _).mp hrun
  rw [Bool.and_eq_true] at h
  obtain ⟨d, hd⟩ := returns_of h.2
  obtain ⟨id, hstored, hkept⟩ := hnever p (reach_of_run (along_any _) hp) d hd
  exact not_kept h.1 hstored hkept

end Splitcore.Webhooks
