import Splitcore.Money.Spared
import Splitcore.Webhooks.Ingest

/-!
What deliveries and workers do to stored events and their jobs.

A monitor notes what a delivery knows of its event and whether the acknowledgement is due, and
what a worker found and did. Settlements and transfers, which the worker runs, touch neither
table.
-/

namespace Splitcore.Webhooks

open Relational Interleaving Money

/-- A delivery, or the worker on the job of an event. -/
inductive Task where
  | ingest (d : Delivery)
  | work (webhookEventId : Uuid)

def Task.program (provider : WebhookProvider) : Task → Prog App Unit
  | .ingest d => do let _ ← Webhooks.ingest provider true d
  | .work webhookEventId => handle webhookEventId

/-! ### Views of the two tables -/

def statusOf (id : Uuid) (db : Db) : Option ProcessingStatus :=
  (db.webhookEvents.find (·.id == id)).map (·.processingStatus)

def jobOf (id : Uuid) (db : Db) : Option WebhookJob :=
  db.webhookJobs.find (·.webhookEventId == id)

/-- The id of the event that is stored under an external id. -/
def idOf (externalEventId : String) (db : Db) : Option Uuid :=
  (db.webhookEvents.find (·.externalEventId == externalEventId)).map (·.id)

/-- Events are added; their identity is not rewritten. -/
def KeepsEvents (s s' : Db) : Prop :=
  ∀ e ∈ s.webhookEvents.rows, ∃ e' ∈ s'.webhookEvents.rows,
    e'.id = e.id ∧ e'.externalEventId = e.externalEventId

lemma KeepsEvents.of_eq {s s' : Db} (h : s'.webhookEvents = s.webhookEvents) : KeepsEvents s s' :=
  fun e he => ⟨e, h ▸ he, rfl, rfl⟩

lemma statusOf_ne_none {id : Uuid} {db : Db} :
    statusOf id db ≠ none ↔ ∃ e ∈ db.webhookEvents.rows, e.id = id := by
  rw [statusOf, Ne, Option.map_eq_none_iff, Table.find_eq_none]
  simp

lemma KeepsEvents.statusOf {s s' : Db} {id : Uuid} (h : KeepsEvents s s')
    (hid : statusOf id s ≠ none) : statusOf id s' ≠ none := by
  obtain ⟨e, he, rfl⟩ := statusOf_ne_none.mp hid
  obtain ⟨e', he', hid', -⟩ := h e he
  exact statusOf_ne_none.mpr ⟨e', he', hid'⟩

/-! ### The monitor -/

/-- What a task knows: a delivery its stored event, and whether it is through with it; a worker
that the event is not completed, and whether it is done with it. -/
structure Progress where
  task : Task
  event : Option Uuid := none
  through : Bool := false
  unfinished : Bool := false
  done : Bool := false

def Progress.next (g : Progress) : Did App → Progress
  | .stmt (.webhookCreate externalEventId) _ _ s' => { g with event := idOf externalEventId s' }
  | .stmt (.webhookExisting externalEventId) _ _ s' =>
    { g with
      event := idOf externalEventId s'
      through := (idOf externalEventId s').any fun id => statusOf id s' == some .COMPLETED }
  | .stmt (.webhookAdd id) _ _ s' => { g with through := (jobOf id s').isSome }
  | .stmt (.webhookFind id) _ _ s' | .stmt (.webhookCompleted id) _ _ s' =>
    { g with
      unfinished := statusOf id s' != some .COMPLETED, done := statusOf id s' == some .COMPLETED }
  | .stmt (.webhookProcessing id) _ _ s' | .stmt (.webhookFailed id) _ _ s' =>
    { g with unfinished := statusOf id s' != some .COMPLETED }
  | .stmt (.webhookParked id) _ _ s' =>
    { g with
      unfinished := statusOf id s' != some .COMPLETED, done := statusOf id s' == some .FAILED }
  | .failed _ _ => { g with through := false, done := false }
  | _ => g

@[simp] lemma Progress.next_task (g : Progress) (d : Did App) : (g.next d).task = g.task := by
  unfold Progress.next
  split <;> rfl

/-- Whose statement it is. -/
def Owns (provider : WebhookProvider) (g : Progress) : Site → Prop
  | .webhookCreate externalEventId | .webhookExisting externalEventId =>
    ∃ d, g.task = .ingest d ∧ d.eventId provider = some externalEventId
  | .webhookAdd id => (∃ d, g.task = .ingest d) ∧ g.event = some id
  | .webhookFind id | .webhookProcessing id | .webhookParked id | .webhookFailed id
  | .webhookCompleted id => g.task = .work id
  | _ => True

/-- The event whose status a statement writes. -/
def writesStatus : Site → Option Uuid
  | .webhookProcessing id | .webhookParked id | .webhookFailed id | .webhookCompleted id => some id
  | _ => none

lemma owner_of_writes {provider : WebhookProvider} {g : Progress} {site : Site} {id : Uuid}
    (h : Owns provider g site) (hsite : writesStatus site = some id) : g.task = .work id := by
  cases site <;> cases hsite <;> exact h

/-- What a statement does to the two tables. -/
structure Touches (g : Progress) (site : Site) (s s' : Db) : Prop where
  keeps : KeepsEvents s s'
  status : ∀ id, statusOf id s' = statusOf id s ∨ statusOf id s = none ∨
    writesStatus site = some id ∧ g.unfinished = true
  job : ∀ id, jobOf id s' = jobOf id s ∨
    jobOf id s = none ∧ jobOf id s' = some ⟨id, 0, false⟩ ∧ site = .webhookAdd id

/-- A worker that takes its event for unfinished is right, also after its next statement. -/
lemma unfinished_next {provider : WebhookProvider} {g : Progress} {site : Site} {id : Uuid}
    {w : Input} {s s' : Db} (htask : g.task = .work id) (howns : Owns provider g site)
    (htouches : Touches g site s s') (hrow : statusOf id s ≠ none)
    (hbefore : g.unfinished = true → statusOf id s ≠ some .COMPLETED)
    (h : (g.next (.stmt site w s s')).unfinished = true) : statusOf id s' ≠ some .COMPLETED := by
  have hown : ∀ id', g.task = .work id' → statusOf id' s' ≠ some .COMPLETED →
      statusOf id s' ≠ some .COMPLETED := by
    intro id' htask' hne
    cases htask.symm.trans htask'
    exact hne
  have hother : writesStatus site = none → g.unfinished = true → statusOf id s' ≠ some .COMPLETED := by
    intro hsite hunfinished
    rcases htouches.status id with hsame | hnone | ⟨hwrites, -⟩
    · rw [hsame]; exact hbefore hunfinished
    · exact absurd hnone hrow
    · rw [hsite] at hwrites; cases hwrites
  cases site with
  | webhookFind _ => exact hown _ howns (by simpa [Progress.next] using h)
  | webhookProcessing _ => exact hown _ howns (by simpa [Progress.next] using h)
  | webhookParked _ => exact hown _ howns (by simpa [Progress.next] using h)
  | webhookFailed _ => exact hown _ howns (by simpa [Progress.next] using h)
  | webhookCompleted _ => exact hown _ howns (by simpa [Progress.next] using h)
  | _ => exact hother rfl h

/-- What makes a worker done with its event. -/
lemma done_next {provider : WebhookProvider} {g : Progress} {site : Site} {id : Uuid} {w : Input}
    {s s' : Db} (htask : g.task = .work id) (howns : Owns provider g site)
    (h : (g.next (.stmt site w s s')).done = true) :
    g.done = true ∨ statusOf id s' = some .COMPLETED ∨
      site = .webhookParked id ∧ statusOf id s' = some .FAILED := by
  have hown : ∀ id', g.task = .work id' → id' = id := by
    intro id' htask'
    cases htask.symm.trans htask'
    rfl
  cases site with
  | webhookFind _ => cases hown _ howns; exact .inr (.inl (by simpa [Progress.next] using h))
  | webhookParked _ => cases hown _ howns; exact .inr (.inr ⟨rfl, by simpa [Progress.next] using h⟩)
  | webhookCompleted _ => cases hown _ howns; exact .inr (.inl (by simpa [Progress.next] using h))
  | _ => exact .inl h

/-- How a delivery knows its event. -/
lemma event_next {provider : WebhookProvider} {g : Progress} {site : Site} {id : Uuid} {d : Delivery}
    {w : Input} {s s' : Db} (htask : g.task = .ingest d) (howns : Owns provider g site)
    (h : (g.next (.stmt site w s s')).event = some id) : g.event = some id ∨
      ∃ externalEventId, d.eventId provider = some externalEventId ∧
        idOf externalEventId s' = some id := by
  have hown : ∀ externalEventId, (∃ d, g.task = .ingest d ∧ d.eventId provider = some externalEventId) →
      d.eventId provider = some externalEventId := by
    rintro externalEventId ⟨d', htask', hext⟩
    cases htask.symm.trans htask'
    exact hext
  cases site with
  | webhookCreate _ => exact .inr ⟨_, hown _ howns, h⟩
  | webhookExisting _ => exact .inr ⟨_, hown _ howns, h⟩
  | _ => exact .inl h

/-- What gets a delivery through. -/
lemma through_next {provider : WebhookProvider} {g : Progress} {site : Site} {id : Uuid}
    {w : Input} {s s' : Db} (howns : Owns provider g site) (hbefore : g.through = false)
    (hevent : (g.next (.stmt site w s s')).event = some id)
    (h : (g.next (.stmt site w s s')).through = true) :
    statusOf id s' = some .COMPLETED ∨ site = .webhookAdd id ∧ jobOf id s' ≠ none := by
  cases site with
  | webhookExisting _ =>
    simp only [Progress.next] at hevent h
    rw [hevent] at h
    exact .inl (by simpa using h)
  | webhookAdd id' =>
    have hid : id' = id := by simpa using howns.2.symm.trans hevent
    subst hid
    exact .inr ⟨rfl, Option.isSome_iff_ne_none.mp h⟩
  | _ => rw [show g.through = true from h] at hbefore; cases hbefore

/-- A delivery that is through does nothing more, and ends. -/
def attending (provider : WebhookProvider) : Monitor App Task where
  State := Progress
  init task _ := { task }
  next := Progress.next
  rely g _ s := ∀ id, g.task = .work id → statusOf id s ≠ none
  guar g site _ s s' := g.through = false ∧ Owns provider g site ∧ Touches g site s s'
  query g _ := g.through = false
  post g r := match r with
    | .ok _ => match g.task with
      | .ingest _ => g.through = true ∧ g.event ≠ none
      | .work _ => g.done = true
    | .error _ => True

/-- The task keeps to the monitor. -/
abbrev Attends (provider : WebhookProvider) {α : Type} (Q : Progress → Except Err α → Prop)
    (p : Prog App α) (g : Progress) : Prop :=
  Obeys (attending provider) Q p g

/-- A task that came to its end may end; one that threw owes nothing. -/
def Ended (provider : WebhookProvider) {α : Type} (g : Progress) : Except Err α → Prop
  | .ok _ => (attending provider).post g (.ok ())
  | .error _ => True

variable {provider : WebhookProvider} {g : Progress} {site : Site} {id : Uuid} {s s' : Db}
  {w : Input}

lemma touches_same (hevents : s'.webhookEvents = s.webhookEvents)
    (hjobs : s'.webhookJobs = s.webhookJobs) : Touches g site s s' where
  keeps := .of_eq hevents
  status id := .inl (by rw [statusOf, hevents, statusOf])
  job id := .inl (by rw [jobOf, hjobs, jobOf])

/-! ### The worker -/

lemma besideWebhooks : BesideBooks fun db => (db.webhookEvents, db.webhookJobs) :=
  fun _ _ _ _ _ => rfl

lemma process_spares {γ : Type} {f : Db → γ} {event : WebhookEvent} (hf : BesideBooks f) :
    SparesBeside f (process event) := by
  unfold process
  split
  · trivial
  split
  · exact Prog.spares_bind (settle_spares hf) fun _ => trivial
  split
  · exact handleTransferEvent_spares hf
  split
  · exact handleTransferEvent_spares hf
  split
  · exact handleTransferEvent_spares hf
  · trivial

/-- Settlements and transfers go unnoticed. -/
lemma process_attends {event : WebhookEvent} (hthrough : g.through = false) :
    Attends provider (fun g' _ => g' = g ∨ g' = { g with done := false }) (process event) g := by
  refine obeys_of_spares (M := attending provider)
    (I := fun g' => g' = g ∨ g' = { g with done := false }) (process_spares besideWebhooks)
    (fun g' site w s s' hg hsite heq => ?_) (fun g' site e hg _ => ?_)
    (fun g' q hg _ => ⟨?_, hg⟩) (fun g' q a (hg : _ ∨ _) _ => hg) ?_
  · obtain ⟨hevents, hjobs⟩ := Prod.mk.inj heq
    have hnext : g'.next (.stmt site w s s') = g' := by
      cases site <;> first | rfl | cases hsite
    have howns : Owns provider g' site := by
      cases site <;> trivial
    refine ⟨⟨?_, howns, touches_same hevents hjobs⟩, ?_⟩
    · rcases hg with rfl | rfl <;> exact hthrough
    · rwa [show (attending provider).next g' (.stmt site w s s') = g' from hnext]
  · rcases hg with rfl | rfl
    · right; simp [attending, Progress.next, hthrough]
    · right; simp [attending, Progress.next, hthrough]
  · rcases hg with rfl | rfl <;> exact hthrough
  · exact .inl rfl

/-! ### Statements on one event -/

/-- An update of one event, which keeps what identifies it. -/
lemma updated_event {f : WebhookEvent → WebhookEvent} {t : Table WebhookEvent}
    (hid : ∀ e, (f e).id = e.id) (hext : ∀ e, (f e).externalEventId = e.externalEventId)
    (ht : s.webhookEvents.update (·.id == id) f = some t) :
    KeepsEvents s { s with webhookEvents := t } ∧ ∀ id',
      t.find (·.id == id') = if id' = id then (s.webhookEvents.find (·.id == id')).map f
        else s.webhookEvents.find (·.id == id') := by
  constructor
  · intro e he
    refine ⟨if e.id == id then f e else e, ?_, ?_⟩
    · rw [Table.rows_update ht]; exact List.mem_map_of_mem he
    · split
      · exact ⟨hid e, hext e⟩
      · exact ⟨rfl, rfl⟩
  · intro id'
    rw [Table.find_update (fun e _ => by rw [hid]) ht]
    rcases hfind : s.webhookEvents.find (·.id == id') with _ | e
    · simp
    · have he : e.id = id' := by simpa using Table.of_find hfind
      by_cases h : id' = id <;> simp [he, h]

/-- What writing the status of an event does. -/
lemma status_touches (site : Site) {f : WebhookEvent → WebhookEvent} {status : ProcessingStatus}
    (hid : ∀ e, (f e).id = e.id) (hext : ∀ e, (f e).externalEventId = e.externalEventId)
    (hstatus : ∀ e, (f e).processingStatus = status) (hsite : writesStatus site = some id)
    (hunfinished : g.unfinished = true) (hrow : statusOf id s ≠ none) {u : Unit}
    (h : (Model.webhookEvent.update (·.id == id) f).run w s = .ok (u, s')) :
    Touches g site s s' ∧ statusOf id s' = some status := by
  obtain ⟨n, h⟩ := Tx.run_ok.mp h
  obtain ⟨t, ht, heq⟩ := Model.update_ok h
  obtain rfl : s' = { s with webhookEvents := t } := (Prod.mk.inj heq).1
  obtain ⟨hkeeps, hfind⟩ := updated_event hid hext ht
  refine ⟨⟨hkeeps, fun id' => ?_, fun id' => .inl rfl⟩, ?_⟩
  · by_cases h : id' = id
    · subst h; exact .inr (.inr ⟨hsite, hunfinished⟩)
    · refine .inl ?_
      rw [statusOf, hfind, if_neg h, statusOf]
  · rw [statusOf, hfind, if_pos rfl, Option.map_map]
    obtain ⟨e, he⟩ := Option.ne_none_iff_exists'.mp hrow
    obtain ⟨row, hrow, -⟩ := Option.map_eq_some_iff.mp he
    rw [hrow]
    simp [hstatus]

lemma setStatus_attends {status : ProcessingStatus} {Q : Progress → Except Err Unit → Prop}
    (hsite : Owns provider g site) (hwrites : writesStatus site = some id)
    (hthrough : g.through = false) (htask : g.task = .work id)
    (hunfinished : g.unfinished = true)
    (hok : ∀ w s s', statusOf id s' = some status → Q (g.next (.stmt site w s s')) (.ok ()))
    (he : ∀ g e, Q g (.error e)) :
    Attends provider Q (statement site (setStatus id status)) g := by
  refine obeys_command (fun w s u s' hrely h => ?_)
    (fun w s e _ _ => ⟨hthrough, hsite, touches_same rfl rfl⟩) he
  obtain ⟨htouches, hstatus⟩ := status_touches (g := g) site
    (fun e => by rfl) (fun e => by rfl) (fun e => by rfl) hwrites hunfinished (hrely id htask) h
  exact ⟨⟨hthrough, hsite, htouches⟩, hok w s s' hstatus⟩

/-- A worker that is done with its event may end. -/
lemma work_post (htask : g.task = .work id) (hdone : g.done = true) :
    (attending provider).post g (.ok ()) := by
  simp only [attending, htask]
  exact hdone

/-- What the worker does with an event it found not completed. -/
lemma processed_attends {event : WebhookEvent} (htask : g.task = .work id)
    (hthrough : g.through = false) (hunfinished : g.unfinished = true) :
    Attends provider (attending provider).post (do
      statement (.webhookProcessing id) (setStatus id .PROCESSING)
      let result ← (process event).attempt
      match result with
      | .error (.settlementIntegrity _ _) =>
        statement (.webhookParked id) (setStatus id .FAILED)
      | .error e => do
        statement (.webhookFailed id) (setStatus id .FAILED)
        .raise e
      | .ok () => statement (.webhookCompleted id) do
        let now ← Tx.now
        Model.webhookEvent.update (·.id == id)
          fun e => { e with processingStatus := .COMPLETED, processedAt := some now }) g := by
  refine obeys_bind.mpr (setStatus_attends htask rfl hthrough htask hunfinished
    (fun w s s' hstatus => ?_) fun g' e => trivial)
  have hprocess : Attends provider _ (process event) (g.next (.stmt (.webhookProcessing id) w s s')) :=
    process_attends hthrough
  refine obeys_bind.mpr (obeys_attempt.mpr (hprocess.mono fun g' r hg' => ?_))
  have htask' : g'.task = .work id := by rcases hg' with rfl | rfl <;> exact htask
  have hthrough' : g'.through = false := by rcases hg' with rfl | rfl <;> exact hthrough
  have hunfinished' : g'.unfinished = true := by
    rcases hg' with rfl | rfl <;> simp [Progress.next, hstatus]
  rcases r with e | _
  · simp only
    split
    · -- parked
      refine setStatus_attends htask' rfl hthrough' htask' hunfinished' (fun w s s' hstatus => ?_)
        fun g' e => trivial
      exact work_post htask' (by simp [Progress.next, hstatus])
    · refine obeys_bind.mpr (setStatus_attends htask' rfl hthrough' htask' hunfinished'
        (fun w s s' _ => trivial) fun g' e => trivial)
    · rename_i heq; cases heq
  · refine obeys_command (fun w s u s' hrely h => ?_)
      (fun w s e _ _ => ⟨hthrough', htask', touches_same rfl rfl⟩) fun g' e => trivial
    rw [Tx.run_now] at h
    obtain ⟨htouches, hstatus⟩ := status_touches (.webhookCompleted id)
      (fun e => by rfl) (fun e => by rfl) (fun e => by rfl) rfl hunfinished' (hrely id htask') h
    exact ⟨⟨hthrough', htask', htouches⟩,
      work_post htask' (by simp [attending, Progress.next, hstatus])⟩

/-- The worker keeps to the monitor. -/
theorem handle_attends (htask : g.task = .work id) (hthrough : g.through = false) :
    Attends provider (attending provider).post (handle id) g := by
  refine obeys_bind.mpr (obeys_query (fun w s hrely => ⟨⟨hthrough, htask, touches_same rfl rfl⟩, ?_⟩)
    fun g' e => trivial)
  obtain ⟨event, hfind⟩ : ∃ event, s.webhookEvents.find (·.id == id) = some event := by
    obtain ⟨status, h⟩ := Option.ne_none_iff_exists'.mp (hrely id htask)
    obtain ⟨event, hevent, -⟩ := Option.map_eq_some_iff.mp h
    exact ⟨event, hevent⟩
  have hid : event.id = id := by simpa using Table.of_find hfind
  have hstatus : statusOf id s = some event.processingStatus := by rw [statusOf, hfind]; rfl
  simp only [hfind]
  split
  · rename_i hcompleted
    exact work_post htask (by simp [attending, Progress.next, hstatus, hcompleted])
  · rename_i hopen
    rw [hid]
    exact processed_attends htask hthrough (by simp [attending, Progress.next, hstatus, hopen])

/-! ### The delivery -/

lemma find_id {e : WebhookEvent} (he : e ∈ s.webhookEvents.rows) :
    s.webhookEvents.find (·.id == e.id) = some e := by
  have hnames : Table.Names (fun e' : WebhookEvent => e'.id == e.id) (Key.id e.id) :=
    fun e' he' => by simp [Indexed.keys, eq_of_beq he']
  exact (Table.find_eq_some hnames).mpr ⟨he, by simp⟩

/-- A new event is found by the id it is stored under. -/
lemma inserted_event {event : WebhookEvent} {t : Table WebhookEvent}
    (ht : s.webhookEvents.insert event = some t) :
    Touches g site s { s with webhookEvents := t } ∧
      idOf event.externalEventId { s with webhookEvents := t } = some event.id := by
  have hrows := Table.rows_insert ht
  refine ⟨⟨fun e he => ⟨e, ?_, rfl, rfl⟩, fun id => ?_, fun id => .inl rfl⟩, ?_⟩
  · rw [hrows]; exact List.mem_append_left _ he
  · rcases hfind : s.webhookEvents.find (·.id == id) with _ | e
    · right; left; rw [statusOf, hfind]; rfl
    · left
      have hfind' : t.find (·.id == id) = some e := by
        rw [Table.find] at hfind
        rw [Table.find, hrows, List.find?_append, hfind]; rfl
      rw [statusOf, statusOf, hfind', hfind]
  · have hnames : Table.Names (fun e : WebhookEvent => e.externalEventId == event.externalEventId)
        (Key.text event.externalEventId) := fun e he => by simp [Indexed.keys, eq_of_beq he]
    have hfind : t.find (·.externalEventId == event.externalEventId) = some event :=
      (Table.find_eq_some hnames).mpr ⟨by rw [hrows]; simp, by simp⟩
    rw [idOf, hfind]; rfl

lemma store_touches (site : Site) {signature type externalEventId : String} {payload : Json} {event : WebhookEvent}
    (h : (store provider signature type externalEventId payload).run w s = .ok (event, s')) :
    Touches g site s s' ∧ idOf externalEventId s' = some event.id := by
  obtain ⟨n, h⟩ := Tx.run_ok.mp h
  simp only [store, Tx.bind_ok, Tx.freshId_ok, Tx.now_ok, Tx.pure_ok] at h
  obtain ⟨_, _, ⟨-, rfl⟩, _, _, ⟨-, rfl⟩, u, σ₁, hcreate, hevent, heq⟩ := h
  obtain ⟨t, ht, rfl⟩ := Model.create_ok hcreate
  obtain rfl : s' = { s with webhookEvents := t } := (Prod.mk.inj heq).1.symm
  obtain rfl : externalEventId = event.externalEventId := by rw [← hevent]
  exact inserted_event (hevent ▸ ht)

lemma addJob_touches {u : Unit} (h : (addJob id).run w s = .ok (u, s')) :
    Touches g (.webhookAdd id) s s' ∧ (jobOf id s').isSome = true := by
  obtain ⟨n, h⟩ := Tx.run_ok.mp h
  simp only [addJob, Tx.bind_ok, Model.findFirst_ok] at h
  obtain ⟨o, _, ⟨ho, rfl⟩, h⟩ := h
  have ho' : jobOf id s = o := ho
  split at h
  · rename_i hsome
    simp only [Tx.pure_ok] at h
    obtain ⟨-, heq⟩ := h
    obtain rfl : s = s' := (Prod.mk.inj heq).1
    exact ⟨touches_same rfl rfl, ho' ▸ hsome⟩
  · rename_i hnone
    obtain ⟨t, ht, heq⟩ := Model.create_ok h
    obtain rfl : s' = { s with webhookJobs := t } := (Prod.mk.inj heq).1
    have hrows : t.rows = s.webhookJobs.rows ++ [_] := Table.rows_insert ht
    have hjob : ∀ id', jobOf id' { s with webhookJobs := t } =
        (jobOf id' s).or (if id = id' then some ⟨id, 0, false⟩ else none) := by
      intro id'
      simp only [jobOf, Table.find, hrows, List.find?_append]
      congr 1
      by_cases h : id = id' <;> simp [h]
    have hfree : jobOf id s = none := by
      rw [ho']; simpa using hnone
    refine ⟨⟨.of_eq rfl, fun id' => .inl rfl, fun id' => ?_⟩, ?_⟩
    · rw [hjob]
      by_cases h : id = id'
      · subst h; exact .inr ⟨hfree, by simp [hfree], rfl⟩
      · simp [h]
    · rw [hjob, hfree]; simp

lemma enqueue_attends {d : Delivery} {result : IngestResult} (htask : g.task = .ingest d)
    (hthrough : g.through = false) (hevent : g.event = some id) :
    Attends provider (Ended provider) (do enqueue true id; pure result) g := by
  refine obeys_bind.mpr (obeys_command (fun w s u s' _ h => ?_)
    (fun w s e _ _ => ⟨hthrough, ⟨⟨d, htask⟩, hevent⟩, touches_same rfl rfl⟩) fun g' e => trivial)
  obtain ⟨htouches, hjob⟩ := addJob_touches (g := g) h
  refine ⟨⟨hthrough, ⟨⟨d, htask⟩, hevent⟩, htouches⟩, ?_⟩
  simp only [attending, Progress.next, htask, hevent]
  exact ⟨hjob, nofun⟩

/-- A delivery of an event that is stored already. -/
lemma ingestAgain_attends {d : Delivery} {externalEventId : String} (htask : g.task = .ingest d)
    (hthrough : g.through = false) (hext : d.eventId provider = some externalEventId) :
    Attends provider (Ended provider) (ingestAgain true externalEventId) g := by
  refine obeys_bind.mpr (obeys_command (fun w s existing s' _ h => ?_)
    (fun w s e _ _ => ⟨hthrough, ⟨d, htask, hext⟩, touches_same rfl rfl⟩) fun g' e => trivial)
  obtain ⟨n, h⟩ := Tx.run_ok.mp h
  obtain ⟨hfind, heq⟩ := Model.findUniqueOrThrow_ok h
  obtain rfl : s' = s := (Prod.mk.inj heq).1
  refine ⟨⟨hthrough, ⟨d, htask, hext⟩, touches_same rfl rfl⟩, ?_⟩
  have hfind' : s'.webhookEvents.find (·.externalEventId == externalEventId) = some existing := hfind
  have hid : idOf externalEventId s' = some existing.id := by rw [idOf, hfind']; rfl
  have hstatus : statusOf existing.id s' = some existing.processingStatus := by
    rw [statusOf, find_id (Table.mem_of_find hfind')]; rfl
  change Attends provider (Ended provider) (if existing.processingStatus = .COMPLETED then _ else _) _
  split
  · rename_i hcompleted
    show Ended provider ((attending provider).next g (.stmt (.webhookExisting externalEventId) w s' s'))
      (.ok IngestResult.duplicate)
    simp [Ended, attending, Progress.next, htask, hid, hstatus, hcompleted]
  · rename_i hopen
    refine enqueue_attends (d := d) htask ?_ ?_
    · simp [attending, Progress.next, hid, hstatus, hopen]
    · simp [attending, Progress.next, hid]

/-- The delivery keeps to the monitor. -/
theorem ingest_attends {d : Delivery} (htask : g.task = .ingest d) (hthrough : g.through = false) :
    Attends provider (Ended provider) (ingest provider true d) g := by
  unfold ingest
  split
  · trivial
  split
  rotate_left
  · trivial
  rename_i type key htype hkey
  have hext : d.eventId provider = some (externalEventId provider type key) := by
    simp [Delivery.eventId, htype, hkey]
  refine obeys_bind.mpr (obeys_attempt.mpr (obeys_tried (fun w s event s' _ h => ?_)
    (fun w s e _ _ => ⟨⟨hthrough, ⟨d, htask, hext⟩, touches_same rfl rfl⟩, ?_⟩)
    (fun w s s' e => ?_) fun e => ?_))
  · obtain ⟨htouches, hid⟩ := store_touches (g := g) (.webhookCreate _) h
    exact ⟨⟨hthrough, ⟨d, htask, hext⟩, htouches⟩, enqueue_attends (d := d) htask hthrough hid⟩
  -- whatever creating failed with, only a taken key leads on
  · cases e with
    | uniqueViolation => exact ingestAgain_attends htask hthrough hext
    | _ => trivial
  · cases e with
    | uniqueViolation => exact ingestAgain_attends (d := d) htask rfl hext
    | _ => trivial
  · cases e with
    | uniqueViolation => exact ingestAgain_attends (d := d) htask rfl hext
    | _ => trivial

/-- **Every task keeps to the monitor.** -/
theorem program_attends (provider : WebhookProvider) (task : Task) :
    Attends provider (attending provider).post (task.program provider) { task } := by
  cases task with
  | ingest d =>
    refine obeys_bind.mpr ((ingest_attends (d := d) rfl rfl).mono fun g r h => ?_)
    rcases r with e | result
    · trivial
    · exact h
  | work id => exact handle_attends rfl rfl

end Splitcore.Webhooks
