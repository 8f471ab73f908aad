import Splitcore.Encoding.Hex
import Splitcore.Interleaving.Recording
import Splitcore.Webhooks.Completed

/-!
Whose webhooks are taken for the provider's: those that are signed with the secret key. What is stored was
delivered so, and stays.
-/

namespace Splitcore.Webhooks

open Relational Interleaving Encoding Money

/-! ### The signature -/

structure PaystackProvider where
  secretKey : String
  /-- HMAC-SHA512. -/
  hmac : String → List UInt8 → List UInt8

namespace PaystackProvider

/-- An empty key, which anybody could sign with, rejects everything. -/
def verifyWebhookSignature (p : PaystackProvider) (payload : List UInt8) (signature : String) : Bool :=
  if p.secretKey = "" ∨ signature = "" then false
  else
    let expected := p.hmac p.secretKey payload
    let received := fromHex signature.toList
    received.length == expected.length && expected == received

def webhooks (p : PaystackProvider) : WebhookProvider := ⟨"paystack", p.verifyWebhookSignature⟩

variable {p : PaystackProvider} {payload : List UInt8} {signature : String}

/-- **Which signatures are accepted**: the digits of the payload's HMAC, in either case, and something that does
not go on with a pair of digits. -/
theorem verifyWebhookSignature_iff : p.verifyWebhookSignature payload signature = true ↔
    p.secretKey ≠ "" ∧ signature ≠ "" ∧ ∃ digits rest, signature.toList = digits ++ rest ∧
      Spells digits (p.hmac p.secretKey payload) ∧ fromHex rest = [] := by
  rw [← fromHex_eq_iff, verifyWebhookSignature]
  split
  · rename_i hempty
    refine iff_of_false Bool.false_ne_true fun h => ?_
    exact hempty.elim h.1 h.2.1
  · rename_i hnot
    obtain ⟨hkey, hsignature⟩ := not_or.mp hnot
    dsimp only
    rw [Bool.and_eq_true, beq_iff_eq, beq_iff_eq]
    constructor
    · rintro ⟨-, heq⟩
      exact ⟨hkey, hsignature, heq.symm⟩
    · rintro ⟨-, -, heq⟩
      exact ⟨by rw [heq], heq.symm⟩

end PaystackProvider

/-! ### Requests -/

/-- How the server parses a body of a content type, before it calls the controller. -/
abbrev Parser := String → List UInt8 → Option Json

/-- A request to the endpoint, or a run of the handler. -/
inductive Request where
  | delivered (queueEnabled : Bool) (contentType : String) (rawBody : List UInt8) (signature : Option String)
  | handle (webhookEventId : Uuid)

def handlePaystackWebhook (p : PaystackProvider) (parse : Parser) (queueEnabled : Bool) (contentType : String)
    (rawBody : List UInt8) (signature : Option String) : Prog App Unit :=
  match parse contentType rawBody with
  | none => .raise (.badRequest "Malformed body")
  | some payload => do let _ ← ingest p.webhooks queueEnabled ⟨rawBody, signature, payload⟩

/-- Anybody can send anything. -/
def Request.program (p : PaystackProvider) (parse : Parser) : Request → Prog App Unit
  | .delivered queueEnabled contentType rawBody signature =>
    handlePaystackWebhook p parse queueEnabled contentType rawBody signature
  | .handle webhookEventId => Webhooks.handle webhookEventId

/-- The rest of the system does not write events. -/
def requests (p : PaystackProvider) (parse : Parser) : Outside App Request Unit Db where
  entry := Request.program p parse
  start _ _ _ := some ()
  move v db x := some ({ v with webhookEvents := db.webhookEvents }, x)

/-! ### What is stored -/

variable {p : PaystackProvider} {parse : Parser} {e e' e'' event : WebhookEvent} {s s' s'' : Db} {w : Input}
  {request : Option Request}

/-- The event is of a body the provider signed. -/
def Genuine (p : PaystackProvider) (parse : Parser) (e : WebhookEvent) : Prop :=
  ∃ contentType rawBody, p.verifyWebhookSignature rawBody e.signature = true ∧
    parse contentType rawBody = some e.payload ∧ eventType e.payload = some e.eventType

def AllGenuine (p : PaystackProvider) (parse : Parser) (db : Db) : Prop :=
  ∀ e ∈ db.webhookEvents.rows, Genuine p parse e

/-- The same event, perhaps with another status. -/
structure Same (e e' : WebhookEvent) : Prop where
  id : e'.id = e.id
  signature : e'.signature = e.signature
  payload : e'.payload = e.payload
  eventType : e'.eventType = e.eventType

lemma Same.refl (e : WebhookEvent) : Same e e := ⟨rfl, rfl, rfl, rfl⟩

lemma Same.trans (h : Same e e') (h' : Same e' e'') : Same e e'' where
  id := h'.id.trans h.id
  signature := h'.signature.trans h.signature
  payload := h'.payload.trans h.payload
  eventType := h'.eventType.trans h.eventType

/-- The request delivered the event: the body it is of, with the signature it is stored with. -/
def Brings (p : PaystackProvider) (parse : Parser) (request : Option Request) (e : WebhookEvent) : Prop :=
  ∃ queueEnabled contentType rawBody,
    request = some (.delivered queueEnabled contentType rawBody (some e.signature)) ∧
    p.verifyWebhookSignature rawBody e.signature = true ∧
    parse contentType rawBody = some e.payload ∧ eventType e.payload = some e.eventType

lemma Genuine.same (h : Genuine p parse e) (hsame : Same e e') : Genuine p parse e' := by
  unfold Genuine
  rw [hsame.signature, hsame.payload, hsame.eventType]
  exact h

lemma Brings.same (h : Brings p parse request e) (hsame : Same e e') : Brings p parse request e' := by
  unfold Brings
  rw [hsame.signature, hsame.payload, hsame.eventType]
  exact h

lemma Brings.genuine (h : Brings p parse request e) : Genuine p parse e := by
  obtain ⟨queueEnabled, contentType, rawBody, -, hverify, hparse, htype⟩ := h
  exact ⟨contentType, rawBody, hverify, hparse, htype⟩

/-- Stored events stay stored. -/
def Lasts (s s' : Db) : Prop := ∀ e ∈ s.webhookEvents.rows, ∃ e' ∈ s'.webhookEvents.rows, Same e e'

lemma lasts_refl (s : Db) : Lasts s s := fun e he => ⟨e, he, .refl e⟩

lemma lasts_of_eq (h : s'.webhookEvents = s.webhookEvents) : Lasts s s' := by
  intro e he
  rw [← h] at he
  exact ⟨e, he, .refl e⟩

lemma lasts_trans (s₁ s₂ s₃ : Db) (h : Lasts s₁ s₂) (h' : Lasts s₂ s₃) : Lasts s₁ s₃ := by
  intro e he
  obtain ⟨e', he', hsame⟩ := h e he
  obtain ⟨e'', he'', hsame'⟩ := h' e' he'
  exact ⟨e'', he'', hsame.trans hsame'⟩

/-- What a statement does to the events: those there are last, and the request delivered what is added. -/
structure TakesIn (p : PaystackProvider) (parse : Parser) (request : Option Request) (s s' : Db) : Prop where
  lasts : Lasts s s'
  came : ∀ e' ∈ s'.webhookEvents.rows, (∃ e ∈ s.webhookEvents.rows, Same e e') ∨ Brings p parse request e'

lemma takesIn_same (h : s'.webhookEvents = s.webhookEvents) : TakesIn p parse request s s' := by
  refine ⟨lasts_of_eq h, fun e' he' => ?_⟩
  rw [h] at he'
  exact .inl ⟨e', he', .refl e'⟩

lemma takesIn_update {id : Uuid} {f : WebhookEvent → WebhookEvent} {u : Unit} (hf : ∀ e, Same e (f e))
    (h : (Model.webhookEvent.update (·.id == id) f).run w s = .ok (u, s')) :
    TakesIn p parse request s s' ∧ s'.payouts = s.payouts := by
  obtain ⟨n, h⟩ := Tx.run_ok.mp h
  obtain ⟨t, ht, heq⟩ := Model.update_ok h
  obtain rfl : s' = { s with webhookEvents := t } := (Prod.mk.inj heq).1
  have hrows := Table.rows_update ht
  have hsame : ∀ e, Same e (if (e.id == id) = true then f e else e) := by
    intro e
    split
    · exact hf e
    · exact .refl e
  refine ⟨⟨fun e he => ⟨_, ?_, hsame e⟩, fun e' he' => ?_⟩, rfl⟩
  · rw [hrows]
    exact List.mem_map_of_mem he
  · rw [hrows, List.mem_map] at he'
    obtain ⟨e, he, rfl⟩ := he'
    exact .inl ⟨e, he, hsame e⟩

/-- What is stored is of the body that was verified. -/
lemma takesIn_store {queueEnabled : Bool} {signature type externalEventId contentType : String}
    {rawBody : List UInt8} {payload : Json}
    (hrequest : request = some (.delivered queueEnabled contentType rawBody (some signature)))
    (hverify : p.verifyWebhookSignature rawBody signature = true)
    (hparse : parse contentType rawBody = some payload) (htype : eventType payload = some type)
    (h : (store p.webhooks signature type externalEventId payload).run w s = .ok (event, s')) :
    TakesIn p parse request s s' ∧ s'.payouts = s.payouts := by
  obtain ⟨n, h⟩ := Tx.run_ok.mp h
  simp only [store, Tx.bind_ok, Tx.freshId_ok, Tx.now_ok, Tx.pure_ok] at h
  obtain ⟨_, _, ⟨-, rfl⟩, _, _, ⟨-, rfl⟩, u, σ₁, hcreate, hevent, heq⟩ := h
  obtain ⟨t, ht, rfl⟩ := Model.create_ok hcreate
  obtain rfl : s' = { s with webhookEvents := t } := (Prod.mk.inj heq).1.symm
  have hrows := Table.rows_insert ht
  refine ⟨⟨fun e he => ⟨e, ?_, .refl e⟩, fun e he => ?_⟩, rfl⟩
  · rw [hrows]
    exact List.mem_append_left _ he
  · rw [hrows, List.mem_append, List.mem_singleton] at he
    rcases he with he | rfl
    · exact .inl ⟨e, he, .refl e⟩
    · exact .inr ⟨queueEnabled, contentType, rawBody, hrequest, hverify, hparse, htype⟩

/-! ### Where the events of a run come from -/

section TakenIn

variable {L X V : Type} {delivers : L → Option Request}
  {env : Outside App L X V} {ok : Pool App L X → Interleaving.Event App L V → Prop}
  {q₀ q q' : Pool App L X} {ev : Interleaving.Event App L V}

/-- An event was stored at the start, or a run was sent it. -/
def Came (p : PaystackProvider) (parse : Parser) (delivers : L → Option Request) (q₀ q : Pool App L X)
    (e : WebhookEvent) : Prop :=
  (∃ e₀ ∈ q₀.store.webhookEvents.rows, Same e₀ e) ∨ ∃ r ∈ q.runs, Brings p parse (delivers r.label) e

lemma Came.genuine (h : Came p parse delivers q₀ q e) (h₀ : AllGenuine p parse q₀.store) : Genuine p parse e := by
  rcases h with ⟨e₀, he₀, hsame⟩ | ⟨r, -, hbrings⟩
  · exact (h₀ e₀ he₀).same hsame
  · exact hbrings.genuine

lemma Came.same (h : Came p parse delivers q₀ q e) (hsame : Same e e') : Came p parse delivers q₀ q e' :=
  h.imp (fun ⟨e₀, he₀, hsame₀⟩ => ⟨e₀, he₀, hsame₀.trans hsame⟩) fun ⟨r, hr, hbrings⟩ => ⟨r, hr, hbrings.same hsame⟩

lemma Came.extends (h : Came p parse delivers q₀ q e) (hext : Extends q q') : Came p parse delivers q₀ q' e := by
  refine h.imp_right fun ⟨r, hr, hbrings⟩ => ?_
  obtain ⟨r', hr', hlabel, -⟩ := hext r hr
  exact ⟨r', hr', hlabel ▸ hbrings⟩

/-- Every stored event came from somewhere, and none that was stored, or that a run saw, is gone. -/
structure TakenIn (p : PaystackProvider) (parse : Parser) (delivers : L → Option Request)
    (q₀ q : Pool App L X) : Prop where
  came : ∀ e ∈ q.store.webhookEvents.rows, Came p parse delivers q₀ q e
  lasts : Lasts q₀.store q.store
  seen : Between Lasts q₀.store q

theorem takenIn_step (h : TakenIn p parse delivers q₀ q)
    (htakes : (∃ r ∈ q.runs, TakesIn p parse (delivers r.label) q.store q'.store) ∨
      q'.store.webhookEvents = q.store.webhookEvents) (hs : step env q ev = some q') :
    TakenIn p parse delivers q₀ q' := by
  have hext : Extends q q' := step_extends hs
  have hlasts : Lasts q.store q'.store :=
    htakes.elim (fun ⟨_, _, hr⟩ => hr.lasts) lasts_of_eq
  refine ⟨fun e' he' => ?_, lasts_trans _ _ _ h.lasts hlasts,
    between_step lasts_refl lasts_trans h.lasts hlasts h.seen hs⟩
  rcases htakes with ⟨r, hr, htakes⟩ | hsame
  · rcases htakes.came e' he' with ⟨e, he, hsame⟩ | hbrings
    · exact ((h.came e he).same hsame).extends hext
    · exact Came.extends (.inr ⟨r, hr, hbrings⟩) hext
  · rw [hsame] at he'
    exact (h.came e' he').extends hext

variable {J : L → List (Did App) → Site → Db → Db → Prop}

/-- **No event comes from elsewhere and none is lost**, where all that runs do to events is to take them in. -/
theorem takenIn (hJ : ∀ l log site s s', J l log site s s' → TakesIn p parse (delivers l) s s')
    (hmove : ∀ v s x s' x', env.move v s x = some (s', x') → s'.webhookEvents = s.webhookEvents)
    (hentry : ∀ l, Justifies J (env.entry l) l []) (hruns : q₀.runs = []) (hreach : Reach env ok q₀ q) :
    TakenIn p parse delivers q₀ q := by
  have hnone : ∀ r, r ∉ q₀.runs := by simp [hruns]
  suffices h : (justifying J).WatchesAll q ∧ TakenIn p parse delivers q₀ q from h.2
  refine hreach.keeps (P := fun q => (justifying J).WatchesAll q ∧ TakenIn p parse delivers q₀ q)
    (fun q ev q' h _ hs => ?_) ⟨fun r hr => absurd hr (hnone r),
      fun e he => .inl ⟨e, he, .refl e⟩, lasts_refl _, fun r hr => absurd hr (hnone r)⟩
  refine ⟨Monitor.watchesAll_step h.1 (fun l _ _ => hentry l) justifying_relies hs, takenIn_step h.2 ?_ hs⟩
  rcases justified_step h.1 hs with ⟨r, hr, site, hstmt⟩ | hstore | ⟨v, -, hv⟩
  · exact .inl ⟨r, hr, hJ _ _ _ _ _ hstmt⟩
  · exact .inr (by rw [hstore])
  · exact .inr (hmove _ _ _ _ _ hv)

/-- The run has seen the event stored. -/
def Saw (log : List (Did App)) (e : WebhookEvent) : Prop :=
  ∃ site w s s', .stmt site w s s' ∈ log ∧ e ∈ s.webhookEvents.rows

lemma Saw.mono {log log' : List (Did App)} (h : Saw log e) (hpre : log <+: log') : Saw log' e := by
  obtain ⟨site, w, s, s', hd, he⟩ := h
  exact ⟨site, w, s, s', hpre.subset hd, he⟩

/-- An event that a run has seen is stored still. -/
lemma TakenIn.stored {r : Run App L} (h : TakenIn p parse delivers q₀ q) (hr : r ∈ q.runs) (hsaw : Saw r.log e) :
    ∃ e' ∈ q.store.webhookEvents.rows, Same e e' := by
  obtain ⟨site, w, s, s', hd, he⟩ := hsaw
  obtain ⟨-, hstmt, hrest⟩ := h.seen r hr site w s s' hd
  exact lasts_trans _ _ _ hstmt hrest e he

end TakenIn

end Splitcore.Webhooks
