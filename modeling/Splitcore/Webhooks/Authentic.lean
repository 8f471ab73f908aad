import Splitcore.Webhooks.Signed

/-!
What the handler takes up: no run of it looks for a payment or a payout that no stored event of a signed payload
names.
-/

namespace Splitcore.Webhooks

open Relational Interleaving Encoding Money

/-! ### What is claimed -/

variable {p : PaystackProvider} {parse : Parser} {e e' event : WebhookEvent} {site : Site}
  {s s' : Db} {reference : String} {α : Type}

def TRANSFER_EVENTS : List String := ["transfer.success", "transfer.failed", "transfer.reversed"]

/-- Where a settlement or the handling of a transfer event begins, it is for the reference the event names. -/
def Names (e : WebhookEvent) : Site → Prop
  | .settleFind reference => e.eventType = "charge.success" ∧ payloadReference e.payload = some reference
  | .handleTransferEventFind reference =>
    e.eventType ∈ TRANSFER_EVENTS ∧ payloadReference e.payload = some reference
  | _ => True

/-- The reference a settlement or the handling of a transfer event begins with. -/
def begins : Site → Option String
  | .settleFind reference | .handleTransferEventFind reference => some reference
  | _ => none

lemma names_of_none (h : begins site = none) : Names e site := by
  cases site with
  | settleFind reference => cases h
  | handleTransferEventFind reference => cases h
  | _ => trivial

lemma Names.same (h : Names e site) (hsame : Same e e') : Names e' site := by
  cases site with
  | settleFind reference => exact ⟨hsame.eventType.trans h.1, hsame.payload ▸ h.2⟩
  | handleTransferEventFind reference => exact ⟨hsame.eventType ▸ h.1, hsame.payload ▸ h.2⟩
  | _ => trivial

/-- Every stored event is genuine, and was stored at the start or delivered to one of the runs; and whatever
settlement or transfer event a run took up, a stored event names it. -/
structure Authentic (p : PaystackProvider) (parse : Parser) (q₀ q : Pool App Request Unit) : Prop where
  stored : ∀ e ∈ q.store.webhookEvents.rows, Genuine p parse e
  came : ∀ e ∈ q.store.webhookEvents.rows, Came p parse some q₀ q e
  takenUp : ∀ r ∈ q.runs, ∀ site w s s', .stmt site w s s' ∈ r.log → begins site ≠ none →
    ∃ e ∈ q.store.webhookEvents.rows, Genuine p parse e ∧ Names e site

/-! ### Where settlements and transfer events begin -/

section Begins

variable {N : Site → Prop} (hN : ∀ site, begins site = none → N site)
include hN

lemma names_stmt {m : Tx α} (h : begins site = none) : (statement site m).Each fun site _ _ => N site :=
  Prog.each_command (fun _ => hN site h) fun _ _ _ _ _ => hN site h

lemma names_query {g : Db → α} (h : begins site = none) : (query site g : Prog App α).Each fun site _ _ => N site :=
  Prog.each_query fun _ => hN site h

lemma reload_names {id : Uuid} : (some <$> reload id).Each fun site _ _ => N site :=
  Prog.each_bind (names_stmt hN rfl) fun _ => trivial

omit hN in
lemma enqueuePayouts_names {ids : List Uuid} : (enqueuePayouts ids).Each fun site _ _ => N site := by
  induction ids with
  | nil => trivial
  | cons id ids ih => exact Prog.each_bind (Prog.each_attempt Prog.each_request) fun _ => ih

lemma settleVerified_names {payment : PaymentTransaction} :
    (settleVerified reference payment).Each fun site _ _ => N site := by
  unfold settleVerified
  split
  · trivial
  refine Prog.each_bind (names_stmt hN rfl) fun rule => Prog.each_bind Prog.each_ofExcept fun entries => ?_
  refine Prog.each_bind (names_stmt hN rfl) fun settled => ?_
  cases settled
  · exact reload_names hN
  · exact Prog.each_bind enqueuePayouts_names fun _ => reload_names hN

/-- A settlement begins with its reference. -/
lemma settle_names (h : N (.settleFind reference)) : (settle reference).Each fun site _ _ => N site := by
  refine Prog.each_bind (Prog.each_query fun _ => h) fun found => ?_
  rcases found with _ | payment
  · trivial
  dsimp only
  split
  · trivial
  refine Prog.each_bind Prog.each_request fun verification => ?_
  split
  · exact Prog.each_bind (names_stmt hN rfl) fun _ => reload_names hN
  · exact Prog.each_bind (names_stmt hN rfl) fun _ => reload_names hN
  · exact Prog.each_bind (names_stmt hN rfl) fun _ => reload_names hN
  · split
    · trivial
    · exact settleVerified_names hN

lemma markSucceeded_names {payoutId : Uuid} : (markSucceeded payoutId reference).Each fun site _ _ => N site := by
  refine Prog.each_bind (names_query hN rfl) fun found => ?_
  rcases found with _ | ⟨payout, account⟩
  · trivial
  · exact Prog.each_bind Prog.each_ofExcept fun entries => Prog.each_bind (names_stmt hN rfl) fun _ => trivial

lemma retryOrReview_names {payout : Payout} {outcome : TransferOutcome} {reason : Option String} :
    (retryOrReview payout outcome reason).Each fun site _ _ => N site := by
  unfold retryOrReview
  split
  · exact names_stmt hN rfl
  · exact Prog.each_request

/-- The handling of a transfer event begins with its reference. -/
lemma handleTransferEvent_names {outcome : TransferOutcome} {reason : Option String}
    (h : N (.handleTransferEventFind reference)) :
    (handleTransferEvent reference outcome reason).Each fun site _ _ => N site := by
  refine Prog.each_bind (Prog.each_query fun _ => h) fun found => ?_
  rcases found with _ | ⟨payout, account⟩
  · trivial
  dsimp only
  split
  · exact markSucceeded_names hN
  split
  · refine Prog.each_bind Prog.each_ofExcept fun entries => Prog.each_bind (names_stmt hN rfl) fun reversed => ?_
    split
    · exact retryOrReview_names hN
    · trivial
  split
  · exact Prog.each_bind (names_stmt hN rfl) fun _ => retryOrReview_names hN
  · trivial

end Begins

/-- What the handler does about an event is for the reference of the event. -/
lemma process_names : (process event).Each fun site _ _ => Names event site := by
  unfold process
  rcases hreference : payloadReference event.payload with _ | reference
  · trivial
  dsimp only
  have hother : ∀ type ∈ TRANSFER_EVENTS, event.eventType = type → Names event (.handleTransferEventFind reference) :=
    fun type htype hevent => ⟨by rw [hevent]; exact htype, hreference⟩
  split
  · rename_i htype
    exact Prog.each_bind (settle_names (fun _ => names_of_none) ⟨htype, hreference⟩) fun _ => trivial
  split
  · rename_i htype
    exact handleTransferEvent_names (fun _ => names_of_none) (hother _ (by simp [TRANSFER_EVENTS]) htype)
  split
  · rename_i htype
    exact handleTransferEvent_names (fun _ => names_of_none) (hother _ (by simp [TRANSFER_EVENTS]) htype)
  split
  · rename_i htype
    exact handleTransferEvent_names (fun _ => names_of_none) (hother _ (by simp [TRANSFER_EVENTS]) htype)
  · trivial

/-! ### The handler and the endpoint -/

/-- Of what a request's statements may do, it justifies that events are taken in where nothing begins and payouts
are left alone, and that an event is processed that the run saw. -/
structure Vouches {L : Type} (J : L → List (Did App) → Site → Db → Db → Prop) (l : L) (p : PaystackProvider)
    (parse : Parser) (request : Option Request) : Prop where
  mono : ∀ log log' site s s', log <+: log' → J l log site s s' → J l log' site s s'
  beside : ∀ log site s s', TakesIn p parse request s s' → s'.payouts = s.payouts → begins site = none →
    J l log site s s'
  processed : ∀ log event, Saw log event → (process event).Each (J l log)

section Vouched

variable {L : Type} {J : L → List (Did App) → Site → Db → Db → Prop} {l : L} {log : List (Did App)}
  {request : Option Request} {id : Uuid} {w : Input} {u : Unit} {queueEnabled : Bool}
  (hJ : Vouches J l p parse request)
include hJ

/-- A statement of the webhooks' own. -/
lemma statement_vouched {m : Tx α} (hsite : begins site = none) (h : ∀ w s a s', m.run w s = .ok (a, s') →
    TakesIn p parse request s s' ∧ s'.payouts = s.payouts) : Justifies J (statement site m) l log := by
  refine justifies_of_each (hJ.mono log) (Prog.each_command (fun s => ?_) fun w s a s' hrun => ?_)
  · exact hJ.beside _ _ _ _ (takesIn_same rfl) rfl hsite
  · exact hJ.beside _ _ _ _ (h w s a s' hrun).1 (h w s a s' hrun).2 hsite

lemma setStatus_vouched {status : ProcessingStatus} (hsite : begins site = none) :
    Justifies J (statement site (setStatus id status)) l log :=
  statement_vouched hJ hsite fun _ _ _ _ hrun => takesIn_update (fun _ => ⟨by rfl, by rfl, by rfl, by rfl⟩) hrun

/-- **The handler** reads a stored event, and goes on with that one. -/
lemma handle_vouched : Justifies J (handle id) l log := by
  refine justifies_query (fun s => hJ.beside _ _ _ _ (takesIn_same rfl) rfl rfl) fun w s => ?_
  rcases hfind : s.webhookEvents.find (·.id == id) with _ | event
  · trivial
  have hsaw : Saw (log ++ [.stmt (.webhookFind id) w s s]) event :=
    ⟨.webhookFind id, w, s, s, by simp, Table.mem_of_find hfind⟩
  dsimp only
  split
  · trivial
  refine justifies_then (setStatus_vouched hJ rfl) fun _ log' hpre => ?_
  have hprocess : Justifies J (process event) l log' :=
    justifies_of_each (hJ.mono log') (hJ.processed log' event (hsaw.mono hpre))
  refine justifies_then (obeys_attempt.mpr hprocess) fun result log _ => ?_
  split
  · exact setStatus_vouched hJ rfl
  · exact justifies_then (setStatus_vouched hJ rfl) fun _ _ _ => trivial
  · refine statement_vouched hJ rfl fun w s u s' hrun => ?_
    rw [Tx.run_now] at hrun
    exact takesIn_update (fun _ => ⟨by rfl, by rfl, by rfl, by rfl⟩) hrun

lemma enqueue_vouched : Justifies J (enqueue queueEnabled id) l log := by
  unfold enqueue
  split
  · exact handle_vouched hJ
  · refine statement_vouched hJ rfl fun w s u s' hrun => ?_
    obtain ⟨webhookJobs, rfl⟩ := Completed.addJob_jobs hrun
    exact ⟨takesIn_same rfl, rfl⟩

lemma ingestAgain_vouched {externalEventId : String} :
    Justifies J (ingestAgain queueEnabled externalEventId) l log := by
  refine justifies_then (statement_vouched hJ rfl fun w s existing s' hrun => ?_) fun existing log _ => ?_
  · rw [(findUniqueOrThrow_ok hrun).2]
    exact ⟨takesIn_same rfl, rfl⟩
  · split
    · trivial
    · exact justifies_then (enqueue_vouched hJ) fun _ _ _ => trivial

lemma ingest_vouched {contentType : String} {d : Delivery} (hparse : parse contentType d.rawBody = some d.payload)
    (hrequest : request = some (.delivered queueEnabled contentType d.rawBody d.signature)) :
    Justifies J (ingest p.webhooks queueEnabled d) l log := by
  unfold ingest
  split
  · trivial
  rename_i signature hsignature
  obtain ⟨htruthy, hverify⟩ := Option.filter_eq_some_iff.mp hsignature
  rw [show d.signature = some signature from (Option.filter_eq_some_iff.mp htruthy).1] at hrequest
  split
  · rename_i type key htype hkey
    refine justifies_then (obeys_attempt.mpr (statement_vouched hJ rfl fun w s event s' hrun =>
      takesIn_store hrequest hverify hparse htype hrun)) fun created log _ => ?_
    split
    · exact justifies_then (enqueue_vouched hJ) fun _ _ _ => trivial
    · exact ingestAgain_vouched hJ
    · trivial
  · trivial

end Vouched

/-- **Whatever is sent to the endpoint**, and whoever sent it. -/
lemma program_vouched {L : Type} {J : L → List (Did App) → Site → Db → Db → Prop} {l : L} {log : List (Did App)}
    {request : Request} (hJ : Vouches J l p parse (some request)) : Justifies J (request.program p parse) l log := by
  cases request with
  | delivered queueEnabled contentType rawBody signature =>
    unfold Request.program handlePaystackWebhook
    dsimp only
    split
    · trivial
    · rename_i payload hparse
      exact justifies_then (ingest_vouched hJ hparse rfl) fun _ _ _ => trivial
  | handle id => exact handle_vouched hJ

/-! ### Whole runs -/

/-- Events are taken in, and what begins is what an event names that the run saw. -/
def TakesUp (p : PaystackProvider) (parse : Parser) (request : Request) (log : List (Did App)) (site : Site)
    (s s' : Db) : Prop :=
  TakesIn p parse (some request) s s' ∧ (begins site ≠ none → ∃ e, Saw log e ∧ Names e site)

lemma takesUp_vouches (request : Request) : Vouches (TakesUp p parse) request p parse (some request) where
  mono log log' site s s' hpre h := by
    refine ⟨h.1, fun hbegins => ?_⟩
    obtain ⟨e, hsaw, hnames⟩ := h.2 hbegins
    exact ⟨e, hsaw.mono hpre, hnames⟩
  beside log site s s' htakes _ hsite := ⟨htakes, fun hbegins => absurd hsite hbegins⟩
  processed log event hsaw := by
    have htakes : (process event).Each fun _ s s' => TakesIn p parse (some request) s s' :=
      (process_spares besideWebhooks).each.mono fun _ _ _ heq => takesIn_same (Prod.mk.inj heq).1
    exact (htakes.and process_names).mono fun _ _ _ h => ⟨h.1, fun _ => ⟨event, hsaw, h.2⟩⟩

/-- **Nothing unsigned is stored or processed**, whatever anybody sends: every stored event is of a body the
provider signed, which one of the runs was sent with its signature unless it was stored at the start; and every
settlement and every transfer event taken up is for the reference a stored event names. -/
theorem authentic (p : PaystackProvider) (parse : Parser) {q₀ q : Pool App Request Unit} (hruns : q₀.runs = [])
    (hgenuine : AllGenuine p parse q₀.store) (hreach : Reach (requests p parse) anyEvent q₀ q) :
    Authentic p parse q₀ q := by
  have hentry : ∀ request, Justifies (TakesUp p parse) ((requests p parse).entry request) request [] :=
    fun request => program_vouched (takesUp_vouches request)
  have hmove : ∀ v s x s' x', (requests p parse).move v s x = some (s', x') → s'.webhookEvents = s.webhookEvents := by
    intro v s x s' x' h
    simp only [requests, Option.some.injEq, Prod.mk.injEq] at h
    rw [← h.1]
  have htaken : TakenIn p parse some q₀ q := takenIn (fun _ _ _ _ _ h => h.1) hmove hentry hruns hreach
  have hstored : ∀ e ∈ q.store.webhookEvents.rows, Genuine p parse e := fun e he => (htaken.came e he).genuine hgenuine
  refine ⟨hstored, htaken.came, fun r hr site w s s' hd hbegins => ?_⟩
  obtain ⟨before, hpre, -, htakesUp⟩ := justified_by ((justified hentry hruns hreach).2 r hr) hd
  obtain ⟨e, hsaw, hnames⟩ := htakesUp hbegins
  obtain ⟨e', he', hsame⟩ := htaken.stored hr (hsaw.mono hpre)
  exact ⟨e', he', hstored e' he', hnames.same hsame⟩

/-! ### A signed delivery -/

def chargeBody : List UInt8 :=
  "\x7b\"event\":\"charge.success\",\"data\":\x7b\"reference\":\"r\"\x7d\x7d".toList.map fun c => .ofNat c.toNat

def chargeHmac : List UInt8 :=
  [0xe9, 0x59, 0x4b, 0x0d, 0x83, 0x17, 0x5b, 0x09, 0xf1, 0xbc, 0x7e, 0xe7, 0x7c, 0x52, 0xcb, 0x3c,
   0x88, 0x04, 0xbd, 0x82, 0xe1, 0x60, 0x0a, 0x63, 0x84, 0xb5, 0x97, 0x89, 0x63, 0x7e, 0x73, 0xfe,
   0x96, 0x31, 0x9e, 0x1c, 0xca, 0xfe, 0xbf, 0x03, 0x0d, 0x95, 0xe7, 0xa9, 0xe9, 0x3a, 0x7a, 0x8e,
   0x65, 0x58, 0x92, 0x53, 0x83, 0xf9, 0x2e, 0xe4, 0xa0, 0x72, 0xe7, 0x8f, 0x4d, 0x14, 0x07, 0x78]

def chargeSignature : String := String.ofList (toHex chargeHmac)

def signing : PaystackProvider :=
  ⟨"sk_test", fun key body => if key = "sk_test" ∧ body = chargeBody then chargeHmac else []⟩

def parseCharge : Parser := fun _ body =>
  if body = chargeBody then some (.obj [("event", .str "charge.success"), ("data", .obj [("reference", .str "r")])])
  else none

def nothingStored : Pool App Request Unit := ⟨{}, (), []⟩

/-- The signed delivery is stored, and handled here; one with another signature is not. -/
def deliveredTwice : List (Event App Request Db) :=
  [.start (.delivered false "application/json" chargeBody (some chargeSignature)),
    .start (.delivered false "application/json" chargeBody (some "00"))] ++ execs 0 [1, 2, 3, 4, 5]

theorem authentic_sample : ∃ q', run (requests signing parseCharge) nothingStored deliveredTwice = some q' ∧
    q'.store.webhookEvents.rows.length = 1 ∧ Authentic signing parseCharge nothingStored q' := by
  have hrun : ((run (requests signing parseCharge) nothingStored deliveredTwice).any fun q' =>
      q'.store.webhookEvents.rows.length == 1) = true := by decide +kernel
  obtain ⟨q', hq', hlength⟩ := (Option.any_eq_true _ _).mp hrun
  exact ⟨q', hq', beq_iff_eq.mp hlength,
    authentic signing parseCharge rfl (fun e he => by cases he) (reach_of_run (along_any _) hq')⟩

end Splitcore.Webhooks
