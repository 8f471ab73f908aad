import Splitcore.Money.Services
import Splitcore.Webhooks.Watched

/-!
A completed event stays completed, as long as no run completes an event that another run has yet
to write the outcome of.

Deliveries, with a queue or without, and runs of the handler go on side by side, any number of them
on one event. A monitor notes the event a run found not completed, and the event a delivery may
still hand to the queue.
-/

namespace Splitcore.Webhooks.Completed

open Relational Interleaving Money

/-- A delivery, or a run of the handler: an attempt at a job, perhaps one more on a job that
stalled. -/
inductive Call where
  | ingest (queueEnabled : Bool) (d : Delivery)
  | handle (webhookEventId : Uuid)

def Call.program (provider : WebhookProvider) : Call → Prog App Unit
  | .ingest queueEnabled d => do let _ ← Webhooks.ingest provider queueEnabled d
  | .handle webhookEventId => Webhooks.handle webhookEventId

/-- Any calls at any time. The rest of the system does not write events. -/
def calls (provider : WebhookProvider) : Outside App Call Unit Db where
  entry := Call.program provider
  start _ _ _ := some ()
  move v db x := some ({ v with webhookEvents := db.webhookEvents }, x)

/-! ### What is claimed -/

def Ended (p : Prog App Unit) : Prop := (∃ a, p = .ret a) ∨ ∃ e, p = .raise e

/-- The run read the event as not completed, and has not ended. -/
def Open (r : Run App Call) (id : Uuid) : Prop :=
  (∃ w s s', .stmt (.webhookFind id) w s s' ∈ r.log ∧ statusOf id s ≠ some .COMPLETED) ∧ ¬ Ended r.prog

/-- The run is about to write that the event is completed. -/
def Completes (r : Run App Call) (id : Uuid) : Prop :=
  ∃ eff k, r.prog = .stmt (.webhookCompleted id) eff k

/-- No run completes an event that another run has open, unless that one is about to complete it,
too. -/
def CompletesAlone (p : Pool App Call Unit) (ev : Event App Call Db) : Prop :=
  ∀ i r id, executes ev = some i → p.live i = some r → Completes r id →
    ∀ j r', j ≠ i → p.live j = some r' → Open r' id → Completes r' id

/-- The event whose job a statement adds. -/
def addsJob : Site → Option Uuid
  | .webhookAdd id => some id
  | _ => none

/-- In every allowed run, a completed event stays completed; what begins when it is completed
neither writes its status nor hands it to the queue. -/
def CompletedIsFinal (provider : WebhookProvider)
    (ok : Pool App Call Unit → Event App Call Db → Prop) (p₀ : Pool App Call Unit) : Prop :=
  ∀ p p' id, Reach (calls provider) ok p₀ p → Reach (calls provider) ok p p' →
    statusOf id p.store = some .COMPLETED → statusOf id p'.store = some .COMPLETED ∧
      ∀ r ∈ p'.runs, statusOf id r.born = some .COMPLETED → ∀ site w s s',
        .stmt site w s s' ∈ r.log → addsJob site ≠ some id ∧ writesStatus site ≠ some id

/-! ### The monitor -/

/-- The event the run found not completed, until it wrote the outcome; the event a delivery may
hand to the queue. -/
structure Held where
  found : Option Uuid := none
  adds : Option Uuid := none

def Held.next (g : Held) : Did App → Held
  | .stmt (.webhookFind id) _ s _ =>
    { g with found := if (statusOf id s).any (· ≠ .COMPLETED) then some id else none }
  | .stmt (.webhookParked _) _ _ _ | .stmt (.webhookFailed _) _ _ _ | .stmt (.webhookCompleted _) _ _ _
  | .failed (.webhookCompleted _) _ => { g with found := none }
  | .stmt (.webhookCreate externalEventId) _ s s' =>
    { g with adds := (idOf externalEventId s').filter fun id => statusOf id s = none }
  | .stmt (.webhookExisting externalEventId) _ s _ =>
    { g with adds := (idOf externalEventId s).filter fun id => statusOf id s ≠ some .COMPLETED }
  | _ => g

/-- What a statement does to the statuses of events, and what its run holds. -/
structure Writes (g : Held) (site : Site) (s s' : Db) : Prop where
  status : ∀ id, statusOf id s' = statusOf id s ∨
    statusOf id s = none ∧ statusOf id s' = some .PENDING ∨
    writesStatus site = some id ∧ (statusOf id s' = some .COMPLETED ↔ site = .webhookCompleted id)
  found : ∀ id, writesStatus site = some id → g.found = some id
  adds : ∀ id, addsJob site = some id → g.adds = some id

def completing : Monitor App Call where
  State := Held
  init _ _ := {}
  next := Held.next
  rely _ _ _ := True
  guar g site _ s s' := Writes g site s s'

variable {provider : WebhookProvider} {g : Held} {site : Site} {id : Uuid} {s s' : Db} {w : Input}
  {d : Did App}

/-- A run holds the event it holds, until it writes the outcome, or one it finds not completed. -/
lemma found_next (h : (g.next d).found = some id) :
    (g.found = some id ∧ (∀ id' w s s', d ≠ .stmt (.webhookCompleted id') w s s') ∧
      ∀ id' e, d ≠ .failed (.webhookCompleted id') e) ∨
    ∃ w s s', d = .stmt (.webhookFind id) w s s' ∧ statusOf id s ≠ some .COMPLETED := by
  unfold Held.next at h
  split at h
  · rename_i id' w s s'
    simp only [Option.ite_none_right_eq_some, Option.some.injEq] at h
    obtain ⟨hany, rfl⟩ := h
    refine .inr ⟨w, s, s', rfl, fun hcompleted => ?_⟩
    rw [hcompleted] at hany
    simp at hany
  · cases h
  · cases h
  · cases h
  · cases h
  · exact .inl ⟨h, by simp, by simp⟩
  · exact .inl ⟨h, by simp, by simp⟩
  · rename_i hcompleted hfailed _ _
    exact .inl ⟨h, fun id' w s s' hd => hcompleted id' w s s' hd, fun id' e hd => hfailed id' e hd⟩

/-- An event that a delivery may hand to the queue was not completed when it learned of it. -/
lemma adds_next (h : (g.next d).adds = some id) : g.adds = some id ∨
    ∃ site w s s', d = .stmt site w s s' ∧ statusOf id s ≠ some .COMPLETED := by
  unfold Held.next at h
  split at h
  · exact .inl h
  · exact .inl h
  · exact .inl h
  · exact .inl h
  · exact .inl h
  · rename_i _ w s s'
    obtain ⟨-, hnone⟩ := Option.filter_eq_some_iff.mp h
    refine .inr ⟨_, w, s, s', rfl, ?_⟩
    rw [of_decide_eq_true hnone]
    exact fun hcompleted => by cases hcompleted
  · rename_i _ w s s'
    obtain ⟨-, hopen⟩ := Option.filter_eq_some_iff.mp h
    exact .inr ⟨_, w, s, s', rfl, of_decide_eq_true hopen⟩
  · exact .inl h

/-- A run that only sees the event completed does not take it up. -/
lemma held_apart {ds : List (Did App)} (hfound : g.found ≠ some id) (hadds : g.adds ≠ some id)
    (hseen : ∀ site w s s', .stmt site w s s' ∈ ds → statusOf id s = some .COMPLETED) :
    (ds.foldl Held.next g).found ≠ some id ∧ (ds.foldl Held.next g).adds ≠ some id := by
  induction ds generalizing g with
  | nil => exact ⟨hfound, hadds⟩
  | cons d ds ih =>
    refine ih (fun h => ?_) (fun h => ?_) fun site w s s' hd => hseen site w s s' (List.mem_cons_of_mem _ hd)
    · rcases found_next h with ⟨hheld, -⟩ | ⟨w, s, s', rfl, hopen⟩
      · exact hfound hheld
      · exact hopen (hseen _ w s s' List.mem_cons_self)
    · rcases adds_next h with hheld | ⟨site, w, s, s', rfl, hopen⟩
      · exact hadds hheld
      · exact hopen (hseen _ w s s' List.mem_cons_self)

/-! ### Statements on events -/

lemma addsJob_none (h : writesStatus site = some id) : addsJob site = none := by
  cases site <;> first | rfl | cases h

lemma writes_same (hevents : s'.webhookEvents = s.webhookEvents)
    (hfound : ∀ id, writesStatus site = some id → g.found = some id)
    (hadds : ∀ id, addsJob site = some id → g.adds = some id) : Writes g site s s' :=
  ⟨fun id => .inl (by rw [statusOf, hevents, statusOf]), hfound, hadds⟩

/-- The statements that write no status and add no job. -/
lemma writes_nothing (hevents : s'.webhookEvents = s.webhookEvents) (hwrites : writesStatus site = none)
    (hadds : addsJob site = none) : Writes g site s s' :=
  writes_same hevents (fun id h => by rw [hwrites] at h; cases h) fun id h => by rw [hadds] at h; cases h

/-- Writing the status of the event the run holds. -/
lemma status_writes {f : WebhookEvent → WebhookEvent} {status : ProcessingStatus}
    (hid : ∀ e, (f e).id = e.id) (hext : ∀ e, (f e).externalEventId = e.externalEventId)
    (hstatus : ∀ e, (f e).processingStatus = status) (hsite : writesStatus site = some id)
    (hcompletes : status = .COMPLETED ↔ site = .webhookCompleted id) (hfound : g.found = some id) {u : Unit}
    (h : (Model.webhookEvent.update (·.id == id) f).run w s = .ok (u, s')) : Writes g site s s' := by
  obtain ⟨n, h⟩ := Tx.run_ok.mp h
  obtain ⟨t, ht, heq⟩ := Model.update_ok h
  obtain rfl : s' = { s with webhookEvents := t } := (Prod.mk.inj heq).1
  obtain ⟨-, hfind⟩ := updated_event hid hext ht
  refine ⟨fun id' => ?_, fun id' h => ?_, fun id' h => ?_⟩
  · have hafter : statusOf id' { s with webhookEvents := t } =
        if id' = id then (statusOf id' s).map fun _ => status else statusOf id' s := by
      rw [statusOf, hfind, statusOf]
      split <;> simp [Option.map_map, Function.comp_def, hstatus]
    rw [hafter]
    by_cases hsame : id' = id
    · subst hsame
      rw [if_pos rfl]
      rcases hbefore : statusOf id' s with _ | before
      · exact .inl rfl
      · exact .inr (.inr ⟨hsite, by simpa using hcompletes⟩)
    · exact .inl (if_neg hsame)
  · obtain rfl := Option.some.inj (hsite.symm.trans h)
    exact hfound
  · rw [addsJob_none hsite] at h; cases h

/-- A statement that writes the status of the event the run holds, whether or not it does. -/
lemma update_obeys {Q : Held → Except Err Unit → Prop} {m : Tx Unit}
    (hsite : writesStatus site = some id) (hfound : g.found = some id)
    (hm : ∀ w s s', m.run w s = .ok ((), s') → Writes g site s s')
    (hok : ∀ w s s', Q (g.next (.stmt site w s s')) (.ok ())) (he : ∀ g e, Q g (.error e)) :
    Obeys completing Q (statement site m) g := by
  refine obeys_command (fun w s u s' _ h => ⟨hm w s s' h, hok w s s'⟩) (fun w s e _ _ => ?_) he
  refine writes_same rfl (fun id' h => ?_) fun id' h => ?_
  · obtain rfl := Option.some.inj (hsite.symm.trans h)
    exact hfound
  · rw [addsJob_none hsite] at h; cases h

lemma setStatus_obeys {Q : Held → Except Err Unit → Prop} {status : ProcessingStatus}
    (hsite : writesStatus site = some id) (hcompletes : status = .COMPLETED ↔ site = .webhookCompleted id)
    (hfound : g.found = some id) (hok : ∀ w s s', Q (g.next (.stmt site w s s')) (.ok ()))
    (he : ∀ g e, Q g (.error e)) : Obeys completing Q (statement site (setStatus id status)) g :=
  update_obeys hsite hfound (fun _ _ _ h => status_writes (fun _ => by rfl) (fun _ => by rfl)
    (fun _ => by rfl) hsite hcompletes hfound h) hok he

/-! ### The handler -/

/-- Settlements and transfers go unnoticed. -/
lemma process_obeys {event : WebhookEvent} :
    Obeys completing (fun g' _ => g' = g) (process event) g := by
  refine obeys_of_spares (M := completing) (I := fun g' => g' = g) (process_spares besideWebhooks)
    (fun g' site w s s' hg hsite heq => ?_) (fun g' site e hg hsite => ?_) (fun g' q hg _ => ⟨trivial, hg⟩)
    (fun g' q a hg _ => hg) rfl
  · have hnext : g'.next (.stmt site w s s') = g' := by
      cases site <;> first | rfl | cases hsite
    refine ⟨?_, hnext.trans hg⟩
    refine writes_nothing (Prod.mk.inj heq).1 ?_ ?_
    · cases site <;> first | rfl | cases hsite
    · cases site <;> first | rfl | cases hsite
  · have hnext : g'.next (.failed site e) = g' := by
      cases site <;> first | rfl | cases hsite
    exact hnext.trans hg

lemma handle_obeys : Obeys completing (fun _ _ => True) (handle id) g := by
  refine obeys_bind.mpr (obeys_query (fun w s _ => ⟨writes_nothing rfl rfl rfl, ?_⟩) fun _ _ => trivial)
  rcases hfind : s.webhookEvents.find (·.id == id) with _ | event
  · trivial
  have hid : event.id = id := by simpa using Table.of_find hfind
  dsimp only
  split
  · trivial
  rename_i hopen
  have hfound : (g.next (.stmt (.webhookFind id) w s s)).found = some event.id := by
    have hstatus : statusOf id s = some event.processingStatus := by rw [statusOf, hfind]; rfl
    simp [Held.next, hstatus, hopen, hid]
  refine obeys_bind.mpr (setStatus_obeys rfl (by simp) hfound (fun w' s' s'' => ?_) fun _ _ => trivial)
  refine obeys_bind.mpr (obeys_attempt.mpr (process_obeys.mono fun g' result hg' => ?_))
  have hfound' : g'.found = some event.id := by rw [hg']; exact hfound
  rcases result with e | _
  · dsimp only
    split
    · exact setStatus_obeys rfl (by simp) hfound' (fun _ _ _ => trivial) fun _ _ => trivial
    · exact obeys_bind.mpr (setStatus_obeys rfl (by simp) hfound' (fun _ _ _ => trivial) fun _ _ => trivial)
    · rename_i hok; cases hok
  · refine update_obeys rfl hfound' (fun w s s' h => ?_) (fun _ _ _ => trivial) fun _ _ => trivial
    rw [Tx.run_now] at h
    exact status_writes (fun _ => by rfl) (fun _ => by rfl) (fun _ => by rfl) rfl (by simp) hfound' h

/-! ### Deliveries -/

/-- A new event is one that was not there. -/
lemma created_status {event : WebhookEvent} {t : Table WebhookEvent}
    (ht : s.webhookEvents.insert event = some t) : statusOf event.id s = none ∧ ∀ id,
      statusOf id { s with webhookEvents := t } =
        if id = event.id then some event.processingStatus else statusOf id s := by
  have hfree : statusOf event.id s = none := by
    by_contra hstored
    obtain ⟨e, he, hid⟩ := statusOf_ne_none.mp hstored
    have hkey : Key.id event.id ∈ Indexed.keys e := by simp [Indexed.keys, hid]
    exact Table.insert_fresh ht he hkey (by simp [Indexed.keys])
  refine ⟨hfree, fun id => ?_⟩
  have hfind : t.find (·.id == id) = (s.webhookEvents.find (·.id == id)).or
      (if event.id = id then some event else none) := by
    rw [Table.find, Table.rows_insert ht, List.find?_append]
    congr 1
    by_cases h : event.id = id <;> simp [h]
  rw [statusOf, hfind, statusOf]
  by_cases h : id = event.id
  · subst h
    rw [statusOf, Option.map_eq_none_iff] at hfree
    simp [hfree]
  · have hne : ¬ event.id = id := fun heq => h heq.symm
    simp [h, hne]

lemma store_writes {signature type externalEventId : String} {payload : Json} {event : WebhookEvent}
    (h : (store provider signature type externalEventId payload).run w s = .ok (event, s')) :
    Writes g (.webhookCreate externalEventId) s s' ∧
      (g.next (.stmt (.webhookCreate externalEventId) w s s')).adds = some event.id := by
  obtain ⟨n, h⟩ := Tx.run_ok.mp h
  simp only [store, Tx.bind_ok, Tx.freshId_ok, Tx.now_ok, Tx.pure_ok] at h
  obtain ⟨_, _, ⟨-, rfl⟩, _, _, ⟨-, rfl⟩, u, σ₁, hcreate, hevent, heq⟩ := h
  obtain ⟨t, ht, rfl⟩ := Model.create_ok hcreate
  obtain rfl : s' = { s with webhookEvents := t } := (Prod.mk.inj heq).1.symm
  rw [hevent] at ht
  have hext : event.externalEventId = externalEventId := by rw [← hevent]
  have hpending : event.processingStatus = .PENDING := by rw [← hevent]
  obtain ⟨hfree, hafter⟩ := created_status ht
  have hinserted : Touches { task := .work event.id } (.webhookFind event.id) s { s with webhookEvents := t } ∧
      idOf event.externalEventId { s with webhookEvents := t } = some event.id := inserted_event ht
  have hid : idOf externalEventId { s with webhookEvents := t } = some event.id := hext ▸ hinserted.2
  refine ⟨⟨fun id => ?_, fun id h => (by cases h), fun id h => (by cases h)⟩, ?_⟩
  · rw [hafter]
    by_cases hsame : id = event.id
    · subst hsame
      exact .inr (.inl ⟨hfree, by rw [if_pos rfl, hpending]⟩)
    · exact .inl (if_neg hsame)
  · simp [Held.next, hid, Option.filter, hfree]

/-- A job is added, or nothing. -/
lemma addJob_jobs {u : Unit} (h : (addJob id).run w s = .ok (u, s')) : ∃ webhookJobs, s' = { s with webhookJobs } := by
  obtain ⟨n, h⟩ := Tx.run_ok.mp h
  simp only [addJob, Tx.bind_ok, Model.findFirst_ok] at h
  obtain ⟨o, _, ⟨-, rfl⟩, h⟩ := h
  split at h
  · simp only [Tx.pure_ok] at h
    exact ⟨s.webhookJobs, (Prod.mk.inj h.2).1.symm⟩
  · obtain ⟨t, -, heq⟩ := Model.create_ok h
    exact ⟨t, (Prod.mk.inj heq).1⟩

lemma addJob_events {u : Unit} (h : (addJob id).run w s = .ok (u, s')) :
    s'.webhookEvents = s.webhookEvents := by
  obtain ⟨webhookJobs, rfl⟩ := addJob_jobs h
  rfl

lemma enqueue_obeys {queueEnabled : Bool} (hadds : g.adds = some id) :
    Obeys completing (fun _ _ => True) (enqueue queueEnabled id) g := by
  have hwrites : ∀ {s s' : Db}, s'.webhookEvents = s.webhookEvents → Writes g (.webhookAdd id) s s' :=
    fun hevents => writes_same hevents (fun id' h => by cases h) fun id' h => by cases h; exact hadds
  unfold enqueue
  split
  · exact handle_obeys
  · exact obeys_command (fun w s u s' _ h => ⟨hwrites (addJob_events h), trivial⟩)
      (fun w s e _ _ => hwrites rfl) fun _ _ => trivial

/-- A delivery of an event that is stored already. -/
lemma ingestAgain_obeys {queueEnabled : Bool} {externalEventId : String} :
    Obeys completing (fun _ _ => True) (ingestAgain queueEnabled externalEventId) g := by
  refine obeys_bind.mpr (obeys_command (fun w s existing s' _ h => ?_)
    (fun w s e _ _ => writes_nothing rfl rfl rfl) fun _ _ => trivial)
  obtain ⟨n, h⟩ := Tx.run_ok.mp h
  obtain ⟨hfind, heq⟩ := Model.findUniqueOrThrow_ok h
  obtain rfl : s' = s := (Prod.mk.inj heq).1
  refine ⟨writes_nothing rfl rfl rfl, ?_⟩
  have hfind' : s'.webhookEvents.find (·.externalEventId == externalEventId) = some existing := hfind
  dsimp only
  split
  · trivial
  rename_i hopen
  have hstatus : statusOf existing.id s' = some existing.processingStatus := by
    rw [statusOf, find_id (Table.mem_of_find hfind')]; rfl
  have hid : idOf externalEventId s' = some existing.id := by rw [idOf, hfind']; rfl
  have hadds : (g.next (.stmt (.webhookExisting externalEventId) w s' s')).adds = some existing.id := by
    simp [Held.next, hid, hstatus, Option.filter, hopen]
  refine obeys_bind.mpr ((enqueue_obeys hadds).mono fun g' result _ => ?_)
  rcases result with _ | _ <;> trivial

lemma ingest_obeys {queueEnabled : Bool} {d : Delivery} :
    Obeys completing (fun _ _ => True) (ingest provider queueEnabled d) g := by
  unfold ingest
  split
  · trivial
  split
  · refine obeys_bind.mpr (obeys_attempt.mpr (obeys_tried (fun w s event s' _ h => ?_)
      (fun w s e _ _ => ⟨writes_nothing rfl rfl rfl, ?_⟩) (fun w s s' e => ?_) fun e => ?_))
    · obtain ⟨hwrites, hadds⟩ := store_writes (g := g) h
      refine ⟨hwrites, obeys_bind.mpr ((enqueue_obeys hadds).mono fun g' result _ => ?_)⟩
      rcases result with _ | _ <;> trivial
    -- whatever creating failed with, only a taken key leads on
    · cases e with
      | uniqueViolation => exact ingestAgain_obeys
      | _ => trivial
    · cases e with
      | uniqueViolation => exact ingestAgain_obeys
      | _ => trivial
    · cases e with
      | uniqueViolation => exact ingestAgain_obeys
      | _ => trivial
  · trivial

/-- **Every call keeps to the monitor.** -/
theorem program_obeys (provider : WebhookProvider) (call : Call) (s : Db) :
    Obeys completing completing.post (call.program provider) (completing.init call s) := by
  cases call with
  | ingest queueEnabled d =>
    refine obeys_bind.mpr (ingest_obeys.mono fun g result _ => ?_)
    rcases result with _ | _ <;> trivial
  | handle id => exact handle_obeys

/-! ### One event -/

variable {p p' : Pool App Call Unit} {ev : Event App Call Db} {i : ℕ} {r r' : Run App Call}

/-- A statement that fails was the run's next. -/
lemma next_of_failed {e : Err} (hs : step (calls provider) p ev = some p') (hr : p.live i = some r)
    (hr' : p'.runs[i]? = some r') (hlog : r'.log = r.log ++ [.failed site e]) :
    ∃ eff k, r.prog = .stmt site eff k := by
  have hgrown : p.runs[i]? ≠ some r' := by
    intro hsame
    obtain rfl := Option.some.inj ((live_eq_some.mp hr).1.symm.trans hsame)
    have hlength := congrArg List.length hlog
    simp at hlength
  cases step_concerns hs with
  | start l hev hruns hstore =>
    rw [hruns, List.getElem?_append_left (List.getElem?_eq_some_iff.mp (live_eq_some.mp hr).1).1] at hr'
    exact absurd hr' hgrown
  | move v hev hruns =>
    rw [hruns] at hr'
    exact absurd hr' hgrown
  | goes j q q' ds htells hq hruns hgoes hadds =>
    rw [hruns, getElem?_put (live_eq_some.mp hq).1] at hr'
    split at hr'
    · rename_i hij
      subst hij
      obtain rfl := Option.some.inj hr'
      obtain rfl := Option.some.inj (hr.symm.trans hq)
      have hds : ds = [.failed site e] := List.append_cancel_left (hgoes.log.symm.trans hlog)
      subst hds
      cases htells with
      | fail =>
        obtain ⟨q, site', eff, k, hq', hprog, hp'⟩ := step_fail hs
        obtain rfl := Option.some.inj (hq.symm.trans hq')
        have hput : (p.put i (r.goes (k (.error e)) [.failed site' e])).runs[i]? = some q' := by
          rw [← hp', hruns, getElem?_put (live_eq_some.mp hq).1, if_pos rfl]
        rw [getElem?_put (live_eq_some.mp hq).1, if_pos rfl, Option.some.injEq] at hput
        have hlog' := hgoes.log
        rw [← hput] at hlog'
        have hsite : [Did.failed site' e] = [Did.failed site e] := List.append_cancel_left hlog'
        simp only [List.cons.injEq, Did.failed.injEq, and_true] at hsite
        exact ⟨eff, k, hsite ▸ hprog⟩
    · exact absurd hr' hgrown

/-- The run has nothing to do with the event's status, and does not hand it to the queue. -/
def Apart (r : Run App Call) (id : Uuid) : Prop :=
  (completing.at_ r).found ≠ some id ∧ (completing.at_ r).adds ≠ some id ∧
    ∀ site w s s', .stmt site w s s' ∈ r.log → addsJob site ≠ some id ∧ writesStatus site ≠ some id

/-- The invariant: every run that still holds a completed event is about to complete it, or has
ended; what began when the event was completed keeps apart from it. -/
structure Guarded (p : Pool App Call Unit) : Prop where
  watched : completing.WatchesAll p
  clear : ∀ id, statusOf id p.store = some .COMPLETED → ∀ i r, p.live i = some r →
    (completing.at_ r).found = some id → Completes r id ∨ Ended r.prog
  apart : ∀ r ∈ p.runs, ∀ id, statusOf id r.born = some .COMPLETED →
    statusOf id p.store = some .COMPLETED ∧ Apart r id

lemma relies : completing.Relies p ev := by
  cases ev <;> first
    | trivial
    | exact fun _ _ _ _ _ _ => trivial

lemma not_ended {eff : Input → Db → Db} {k : Except Err (Input × Db) → Prog App Unit}
    (hp : r.prog = .stmt site eff k) : ¬ Ended r.prog := by
  rintro (⟨a, hret⟩ | ⟨e, hraise⟩)
  · rw [hp] at hret; cases hret
  · rw [hp] at hraise; cases hraise

/-- What a run holds, it found not completed. -/
lemma found_logged (h : (completing.at_ r).found = some id) :
    ∃ w s s', .stmt (.webhookFind id) w s s' ∈ r.log ∧ statusOf id s ≠ some .COMPLETED := by
  have hlogged : ∀ id, (completing.at_ r).found = some id →
      ∃ w s s', .stmt (.webhookFind id) w s s' ∈ r.log ∧ statusOf id s ≠ some .COMPLETED := by
    refine Monitor.at_log (M := completing) (P := fun (g : Held) ds => ∀ id, g.found = some id →
      ∃ w s s', .stmt (.webhookFind id) w s s' ∈ ds ∧ statusOf id s ≠ some .COMPLETED) r
      (fun id h => by cases h) fun g ds d hg id h => ?_
    rcases found_next h with ⟨hbefore, -⟩ | ⟨w, s, s', rfl, hopen⟩
    · obtain ⟨w, s, s', hmem, hopen⟩ := hg id hbefore
      exact ⟨w, s, s', List.mem_append_left _ hmem, hopen⟩
    · exact ⟨w, s, s', List.mem_append_right _ (List.mem_singleton_self _), hopen⟩
  exact hlogged id h

section Step

variable (h : Guarded p) (hs : step (calls provider) p ev = some p')
include h hs

/-- **What an event does to the status of an event**: nothing, or nothing to a completed one, or it
completes it. -/
lemma status_step (id : Uuid) : statusOf id p'.store = statusOf id p.store ∨
    statusOf id p'.store ≠ some .COMPLETED ∧ statusOf id p.store ≠ some .COMPLETED ∨
    statusOf id p'.store = some .COMPLETED ∧
      ∃ i r, executes ev = some i ∧ p.live i = some r ∧ Completes r id := by
  rcases h.watched.step_store relies hs with ⟨i, r, site, w, hev, hex⟩ | ⟨-, hstore⟩ | ⟨v, rfl, hmove⟩
  · obtain ⟨eff, k, hp⟩ := hex.prog
    rcases hex.guar.status id with hsame | ⟨hnone, hpending⟩ | ⟨hwrites, hcompletes⟩
    · exact .inl hsame
    · exact .inr (.inl ⟨by rw [hpending]; exact fun heq => (by cases heq),
        by rw [hnone]; exact fun heq => (by cases heq)⟩)
    by_cases hsite : site = .webhookCompleted id
    · subst hsite
      exact .inr (.inr ⟨hcompletes.mpr rfl, i, r, hev, hex.live, eff, k, hp⟩)
    · refine .inr (.inl ⟨fun hcompleted => hsite (hcompletes.mp hcompleted), fun hcompleted => ?_⟩)
      -- a run that holds a completed event would be about to complete it
      rcases h.clear id hcompleted i r hex.live (hex.guar.found id hwrites) with ⟨eff', k', hp'⟩ | hended
      · rw [hp] at hp'
        cases hp'
        exact hsite rfl
      · exact not_ended hp hended
  · exact .inl (by rw [hstore])
  · simp only [calls, Option.some.injEq, Prod.mk.injEq] at hmove
    exact .inl (by rw [← hmove.1]; rfl)

lemma completed_step (hcompleted : statusOf id p.store = some .COMPLETED) :
    statusOf id p'.store = some .COMPLETED := by
  rcases status_step h hs id with hsame | ⟨-, hnot⟩ | ⟨hafter, -⟩
  · rw [hsame]; exact hcompleted
  · exact absurd hcompleted hnot
  · exact hafter

/-- What the executing run holds afterwards it held before, and did not complete now. -/
lemma executed_clear (hcompleted : statusOf id p'.store = some .COMPLETED) (hr : p.live i = some r)
    (hev : executes ev = some i) (hex : Executes p p' r site w)
    (hfound : ((completing.at_ r).next (.stmt site w p.store p'.store)).found = some id) : False := by
  obtain ⟨eff, k, hp, -⟩ := hex
  have hbefore : statusOf id p.store = some .COMPLETED ∨ site = .webhookCompleted id := by
    rcases status_step h hs id with hsame | ⟨hnot, -⟩ | ⟨-, j, q, hj, hq, eff', k', hp'⟩
    · exact .inl (hsame ▸ hcompleted)
    · exact absurd hcompleted hnot
    · obtain rfl := Option.some.inj (hev.symm.trans hj)
      obtain rfl := Option.some.inj (hr.symm.trans hq)
      rw [hp] at hp'
      cases hp'
      exact .inr rfl
  rcases found_next hfound with ⟨hheld, hnotCompleted, -⟩ | ⟨w', s, s', hd, hopen⟩
  · rcases hbefore with hbefore | rfl
    · rcases h.clear id hbefore i r hr hheld with ⟨eff', k', hp'⟩ | hended
      · rw [hp] at hp'
        cases hp'
        exact hnotCompleted id _ _ _ rfl
      · exact not_ended hp hended
    · exact hnotCompleted id _ _ _ rfl
  · cases hd
    rcases hbefore with hbefore | hsite
    · exact hopen hbefore
    · cases hsite

omit hs in
/-- A run that asks holds no completed event. -/
lemma asks_clear {q : Ask} {k : Except Err (Ans q) → Prog App Unit} {d : Did App}
    (hcompleted : statusOf id p.store = some .COMPLETED) (hr : p.live i = some r) (hp : r.prog = .ask q k)
    (hfound : ((completing.at_ r).next d).found = some id) (hd : ∀ site w s s', d ≠ .stmt site w s s') :
    False := by
  rcases found_next hfound with ⟨hheld, -⟩ | ⟨w, s, s', hstmt, -⟩
  · rcases h.clear id hcompleted i r hr hheld with ⟨eff, k', hp'⟩ | ⟨a, hret⟩ | ⟨e, hraise⟩
    · rw [hp] at hp'; cases hp'
    · rw [hp] at hret; cases hret
    · rw [hp] at hraise; cases hraise
  · exact hd _ _ _ _ hstmt

lemma clear_step (halone : CompletesAlone p ev) (id : Uuid)
    (hcompleted : statusOf id p'.store = some .COMPLETED) (j : ℕ) (r' : Run App Call)
    (hr' : p'.live j = some r') (hfound : (completing.at_ r').found = some id) :
    Completes r' id ∨ Ended r'.prog := by
  obtain ⟨hrun, halive⟩ := live_eq_some.mp hr'
  -- where the store is as it was, the event was completed before
  have hstill : p'.store = p.store → statusOf id p.store = some .COMPLETED := fun hstore => hstore ▸ hcompleted
  rcases step_run hs hrun with ⟨hold, hother⟩ | ⟨call, -, -, rfl⟩ | ⟨r, ds, hr, hgoes, hadds⟩
  · have hr : p.live j = some r' := live_eq_some.mpr ⟨hold, halive⟩
    rcases status_step h hs id with hsame | ⟨hnot, -⟩ | ⟨-, i, q, hi, hq, hcompletes⟩
    · exact h.clear id (hsame ▸ hcompleted) j r' hr hfound
    · exact absurd hcompleted hnot
    · by_cases hended : Ended r'.prog
      · exact .inr hended
      · exact .inl (halone i q id hi hq hcompletes j r' (fun hji => hother (hji ▸ hi)) hr
          ⟨found_logged hfound, hended⟩)
  · cases hfound
  rw [Monitor.at_continues hgoes] at hfound
  cases hadds with
  | stmt site w hev hex => exact (executed_clear h hs hcompleted hr hev hex hfound).elim
  | lost site w e hev hex =>
    rcases found_next hfound with ⟨hfound', -⟩ | ⟨w', s, s', hd, -⟩
    · exact (executed_clear h hs hcompleted hr hev hex hfound').elim
    · cases hd
  | failed hstore site e =>
    rcases found_next hfound with ⟨hheld, -, hnotCompleted⟩ | ⟨w', s, s', hd, -⟩
    · obtain ⟨eff, k, hp⟩ := next_of_failed hs hr hrun hgoes.log
      rcases h.clear id (hstill hstore) j r hr hheld with ⟨eff', k', hp'⟩ | hended
      · rw [hp] at hp'
        cases hp'
        exact absurd rfl (hnotCompleted id e)
      · exact absurd hended (not_ended hp)
    · cases hd
  | asked hstore q k hp ha =>
    exact (asks_clear h (d := .asked q) (hstill hstore) hr hp hfound (by simp)).elim
  | answered hstore q k hp a =>
    exact (asks_clear h (d := .answered q a) (hstill hstore) hr hp hfound (by simp)).elim
  | nothing hstore => rw [hgoes.gone rfl] at halive; cases halive

lemma apart_step (r' : Run App Call) (hr' : r' ∈ p'.runs) (id : Uuid)
    (hborn : statusOf id r'.born = some .COMPLETED) :
    statusOf id p'.store = some .COMPLETED ∧ Apart r' id := by
  obtain ⟨j, hj⟩ := List.getElem?_of_mem hr'
  rcases step_run hs hj with ⟨hold, -⟩ | ⟨call, -, -, rfl⟩ | ⟨r, ds, hr, hgoes, hadds⟩
  · obtain ⟨hcompleted, hapart⟩ := h.apart r' (List.mem_of_getElem? hold) id hborn
    exact ⟨completed_step h hs hcompleted, hapart⟩
  · exact ⟨completed_step h hs hborn, fun hfound => (by cases hfound), fun hadds => (by cases hadds),
      fun site w s s' hd => (by cases hd)⟩
  rw [hgoes.born] at hborn
  obtain ⟨hcompleted, hfound, hadd, hlog⟩ := h.apart r (Monitor.mem_of_live hr) id hborn
  have hnext := held_apart hfound hadd fun site w s s' hd => by rw [(hadds.stmt_mem hd).1]; exact hcompleted
  refine ⟨completed_step h hs hcompleted, ?_, ?_, fun site w s s' hd => ?_⟩
  · rw [Monitor.at_continues hgoes]; exact hnext.1
  · rw [Monitor.at_continues hgoes]; exact hnext.2
  rw [hgoes.log, List.mem_append] at hd
  rcases hd with hd | hd
  · exact hlog site w s s' hd
  -- the statement it executes now has its guarantee, and the run holds nothing of the event
  have hguar : ∀ {site : Site} {w : Input}, executes ev = some j → Executes p p' r site w →
      addsJob site ≠ some id ∧ writesStatus site ≠ some id := by
    intro site w hev hex
    have hwrites := Monitor.guar_of_executes h.watched relies hr hev hex
    exact ⟨fun hsite => hadd (hwrites.adds id hsite), fun hsite => hfound (hwrites.found id hsite)⟩
  cases hadds with
  | stmt site' w' hev hex =>
    simp only [List.mem_singleton, Did.stmt.injEq] at hd
    exact hd.1 ▸ hguar hev hex
  | lost site' w' e hev hex =>
    simp only [List.mem_cons, Did.stmt.injEq, List.not_mem_nil, or_false, reduceCtorEq] at hd
    exact hd.1 ▸ hguar hev hex
  | failed | asked | answered => simp at hd
  | nothing => cases hd

/-- **One event keeps the invariant.** -/
theorem guarded_step (halone : CompletesAlone p ev) : Guarded p' where
  watched := Monitor.watchesAll_step h.watched (fun call _ _ => program_obeys provider call p.store) relies hs
  clear := clear_step h hs halone
  apart := apart_step h hs

end Step

/-! ### Whole runs -/

lemma guarded_start (h : p.runs = []) : Guarded p where
  watched r hr := by rw [h] at hr; cases hr
  clear id _ i r hr := by simp [live_eq_some, h] at hr
  apart r hr := by rw [h] at hr; cases hr

lemma guarded_reach (h : Guarded p) (hreach : Reach (calls provider) CompletesAlone p p') :
    Guarded p' ∧ ∀ id, statusOf id p.store = some .COMPLETED → statusOf id p'.store = some .COMPLETED :=
  hreach.keeps (P := fun q => Guarded q ∧ ∀ id, statusOf id p.store = some .COMPLETED →
      statusOf id q.store = some .COMPLETED)
    (fun _ _ _ hq hok hs => ⟨guarded_step hq.1 hs hok, fun id hcompleted =>
      completed_step hq.1 hs (hq.2 id hcompleted)⟩) ⟨h, fun _ hcompleted => hcompleted⟩

/-- **COMPLETED is final**, as long as no run completes an event that another run has open. -/
theorem completed_is_final (provider : WebhookProvider) (h : p.runs = []) :
    CompletedIsFinal provider CompletesAlone p := by
  intro p₁ p₂ id hreach hreach' hcompleted
  have hguarded : Guarded p₁ := (guarded_reach (guarded_start h) hreach).1
  obtain ⟨hguarded', hfinal⟩ := guarded_reach hguarded hreach'
  exact ⟨hfinal id hcompleted, fun r hr hborn => (hguarded'.apart r hr id hborn).2.2.2⟩

/-! ### A run: two attempts at one event -/

def paystack : WebhookProvider := ⟨"paystack", fun _ _ => true⟩

/-- An event there is nothing to do about. -/
def identified : WebhookEvent :=
  { id := uid 7, provider := "paystack", eventType := "customeridentification.success"
    externalEventId := "paystack:customeridentification.success:1", signature := "signature"
    payload := .obj [("event", .str "customeridentification.success"), ("data", .obj [("id", .num "1")])]
    receivedAt := 0, processedAt := none, processingStatus := .PENDING }

/-- The event is stored, and nothing is under way. -/
def received : Pool App Call Unit := ⟨{ webhookEvents := ⟨[identified], by decide⟩ }, (), []⟩

theorem completed_is_final_sample : CompletedIsFinal paystack CompletesAlone received :=
  completed_is_final paystack rfl

/-- Both attempts read the event as pending, and the first completes it. -/
def readTwice : List (Event App Call Db) :=
  [.start (.handle (uid 7)), .start (.handle (uid 7)), .exec 0 (inputAt 1), .exec 1 (inputAt 2)] ++
    execs 0 [3, 4]

/-- The second attempt at a completed event writes that it is being processed. -/
theorem completed_overwritten : ¬ CompletedIsFinal paystack anyEvent received := by
  intro hfinal
  have hrun : ((run (calls paystack) received readTwice).any fun p =>
      statusOf (uid 7) p.store == some .COMPLETED && (run (calls paystack) p (execs 1 [5])).any fun p' =>
        statusOf (uid 7) p'.store == some .PROCESSING) = true := by
    decide +kernel
  obtain ⟨p, hp, hboth⟩ := (Option.any_eq_true _ _).mp hrun
  rw [Bool.and_eq_true, beq_iff_eq] at hboth
  obtain ⟨hcompleted, hagain⟩ := hboth
  obtain ⟨p', hp', hprocessing⟩ := (Option.any_eq_true _ _).mp hagain
  have hstill := (hfinal p p' (uid 7) (reach_of_run (along_any _) hp) (reach_of_run (along_any _) hp')
    hcompleted).1
  rw [beq_iff_eq.mp hprocessing] at hstill
  cases hstill

end Splitcore.Webhooks.Completed
