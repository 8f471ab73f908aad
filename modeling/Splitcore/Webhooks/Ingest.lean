import Splitcore.Money.Payouts

/-!
Provider webhooks: the fast part, which verifies, stores and enqueues an event before the
provider gets its acknowledgement, and the part the worker runs for the event's job.
-/

namespace Splitcore.Webhooks

open Interleaving Money

/-! ### What is delivered -/

/-- `value?.name` -/
def field (name : String) : Option Json → Option Json
  | some (.obj fields) => (fields.reverse.find? (·.1 == name)).map (·.2)
  | _ => none

/-- Neither absent nor null. -/
def defined : Option Json → Option Json
  | some .null => none
  | value => value

/-- As a template literal writes it. -/
def Json.text : Json → String
  | .null => "null"
  | .bool b => if b then "true" else "false"
  | .num text => text
  | .str s => s
  | .arr text => text
  | .obj _ => "[object Object]"

structure WebhookProvider where
  name : String
  verifyWebhookSignature : List UInt8 → String → Bool

structure Delivery where
  rawBody : List UInt8
  signature : Option String
  payload : Json

inductive IngestResult where
  | queued | duplicate
deriving DecidableEq

def eventType (payload : Json) : Option String :=
  match field "event" (some payload) with
  | some (.str eventType) => some eventType
  | _ => none

def eventKey (payload : Json) : Option Json :=
  let data := field "data" (some payload)
  defined (field "id" data) <|> defined (field "reference" data)

/-- The unit of deduplication: the same event for the same object. -/
def externalEventId (provider : WebhookProvider) (eventType : String) (eventKey : Json) : String :=
  provider.name ++ ":" ++ eventType ++ ":" ++ Json.text eventKey

/-- The event a delivery is of. -/
def Delivery.eventId (provider : WebhookProvider) (d : Delivery) : Option String := do
  let type ← eventType d.payload
  let key ← eventKey d.payload
  pure (externalEventId provider type key)

/-! ### The worker -/

def setStatus (id : Uuid) (processingStatus : ProcessingStatus) : Tx Unit :=
  Model.webhookEvent.update (·.id == id) fun e => { e with processingStatus }

/-- `typeof payload?.data?.reference === 'string'`, and not empty. -/
def payloadReference (payload : Json) : Option String :=
  match field "reference" (field "data" (some payload)) with
  | some (.str reference) => truthy (some reference)
  | _ => none

def process (event : WebhookEvent) : Prog App Unit :=
  match payloadReference event.payload with
  | none => pure ()
  | some reference =>
    if event.eventType = "charge.success" then do
      let _ ← settle reference
      pure ()
    else if event.eventType = "transfer.success" then
      handleTransferEvent reference .success none
    else if event.eventType = "transfer.failed" then handleTransferEvent reference .failed none
    else if event.eventType = "transfer.reversed" then
      handleTransferEvent reference .reversed none
    else pure ()

/-- An integrity failure is parked for a human; any other is thrown, so that the job is tried
again. -/
def handle (webhookEventId : Uuid) : Prog App Unit := do
  let found ← query (.webhookFind webhookEventId) (·.webhookEvents.find (·.id == webhookEventId))
  match found with
  | none => pure ()
  | some event =>
    if event.processingStatus = .COMPLETED then pure ()
    else do
      statement (.webhookProcessing event.id) (setStatus event.id .PROCESSING)
      let result ← (process event).attempt
      match result with
      | .error (.settlementIntegrity _ _) =>
        statement (.webhookParked event.id) (setStatus event.id .FAILED)
      | .error e => do
        statement (.webhookFailed event.id) (setStatus event.id .FAILED)
        .raise e
      | .ok () => statement (.webhookCompleted event.id) do
        let now ← Tx.now
        Model.webhookEvent.update (·.id == event.id)
          fun e => { e with processingStatus := .COMPLETED, processedAt := some now }

/-! ### Ingest -/

def ATTEMPTS : ℕ := 5

/-- `webhookQueue.add`: a job id that is in any set already makes it do nothing. -/
def addJob (webhookEventId : Uuid) : Tx Unit := do
  let existing ← Model.webhookJob.findFirst (·.webhookEventId == webhookEventId)
  if existing.isSome then pure ()
  else Model.webhookJob.create ⟨webhookEventId, 0, false⟩

/-- Without a queue there is no worker, and the event is processed here. -/
def enqueue (queueEnabled : Bool) (webhookEventId : Uuid) : Prog App Unit :=
  if !queueEnabled then handle webhookEventId
  else statement (.webhookAdd webhookEventId) (addJob webhookEventId)

def store (provider : WebhookProvider) (signature eventType externalEventId : String)
    (payload : Json) : Tx WebhookEvent := do
  let id ← Tx.freshId
  let now ← Tx.now
  let event : WebhookEvent :=
    { id, provider := provider.name, eventType, externalEventId, signature, payload
      receivedAt := now, processedAt := none, processingStatus := .PENDING }
  Model.webhookEvent.create event
  pure event

/-- A delivery of an event that is stored already. -/
def ingestAgain (queueEnabled : Bool) (externalEventId : String) : Prog App IngestResult := do
  let existing ← statement (.webhookExisting externalEventId)
    (Model.webhookEvent.findUniqueOrThrow (·.externalEventId == externalEventId))
  if existing.processingStatus = .COMPLETED then pure .duplicate
  else do
    enqueue queueEnabled existing.id
    pure .duplicate

def ingest (provider : WebhookProvider) (queueEnabled : Bool) (d : Delivery) :
    Prog App IngestResult :=
  match (truthy d.signature).filter (provider.verifyWebhookSignature d.rawBody) with
  | none => .raise (.unauthorized "Invalid webhook signature")
  | some signature =>
    match eventType d.payload, eventKey d.payload with
    | some type, some key => do
      let externalEventId := externalEventId provider type key
      let created ← (statement (.webhookCreate externalEventId)
        (store provider signature type externalEventId d.payload)).attempt
      match created with
      | .ok event => do
        enqueue queueEnabled event.id
        pure .queued
      | .error .uniqueViolation => ingestAgain queueEnabled externalEventId
      | .error e => .raise e
    | _, _ => .raise (.badRequest "Webhook payload missing event type or data identifier")

end Splitcore.Webhooks
