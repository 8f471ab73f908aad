import Splitcore.Money.Accounted

/-!
The guest's side of a payment: `initializePayment` creates it and asks the provider for a
checkout, `getPaymentStatus` polls it.
-/

namespace Splitcore.Money

open Relational Interleaving Ledger

/-! ### The service -/

structure PaymentsConfig where
  providerName : String
  /-- `buildCallbackUrl` of a reference and a QR token, under the configured origins. -/
  buildCallbackUrl : String → String → Option String

structure InitializePaymentDto where
  sessionId : Uuid
  amountKobo : ℤ
  guestDisplayName : Option String
  displayNameEnabled : Option Bool
  email : Option String

structure PaymentInitResponseDto where
  transactionId : Uuid
  reference : String
  authorizationUrl : String
  accessCode : String
  amountKobo : ℤ
  status : PaymentStatus

structure PaymentStatusResponseDto where
  transactionId : Uuid
  reference : String
  status : PaymentStatus
  amountKobo : ℤ
  venueName : String
  entertainerName : Option String
  createdAt : Time
  updatedAt : Time

/-- A guest session with what it includes. -/
structure ScannedSession where
  session : GuestSession
  qrCode : QrCode
  venue : Venue
  entertainer : Option Entertainer

/-- The foreign keys make the code and the venue exist. -/
def findSession (id : Uuid) (db : Db) : Option ScannedSession := do
  let session ← db.guestSessions.find (·.id == id)
  let qrCode ← db.qrCodes.find (·.id == session.qrCodeId)
  let venue ← db.venues.find (·.id == qrCode.venueId)
  pure ⟨session, qrCode, venue, qrCode.entertainerId.bind fun e => db.entertainers.find (·.id == e)⟩

/-- Why a session cannot pay, if it cannot. -/
def sessionError (now : Time) (s : ScannedSession) : Option Err :=
  if now > s.session.expiresAt then some (.gone "Guest session has expired")
  else if !s.qrCode.isActive || s.qrCode.deactivatedAt.isSome then
    some (.gone "QR code is no longer active")
  else if !s.venue.isActive then some (.gone "Venue is no longer active")
  else if s.entertainer.any (!·.isActive) then some (.gone "Entertainer is no longer active")
  else none

/-- `ORDER BY effective_from DESC`, where null comes first. -/
def newer (a b : Option Time) : Bool := match a, b with
  | none, some _ => true
  | some x, some y => y < x
  | _, none => false

def newest (rules : List SplitRule) : Option SplitRule :=
  rules.foldl (fun best rule => match best with
    | none => some rule
    | some b => if newer rule.effectiveFrom b.effectiveFrom then some rule else best) none

def findActiveByVenue (venueId : Uuid) : Prog App SplitRule := do
  let activeRule ← statement (.initializePaymentRule venueId) do
    let rank ← Tx.rank
    Tx.read fun db => newest ((db.splitRules.rows.insertionSort fun a b => rank a.id ≤ rank b.id).filter
      fun r => r.venueId == venueId && r.status == .ACTIVE && r.effectiveTo.isNone)
  match activeRule with
  | some rule => pure rule
  | none => .raise (.notFound ("No active split rule found for venue " ++ String.ofList venueId.text))

def noSplitConfiguration : Err → Err
  | .notFound _ => .badRequest ("Payment cannot be processed: venue split configuration is not " ++
      "set up. Please contact venue staff.")
  | e => e

def createPayment (config : PaymentsConfig) (dto : InitializePaymentDto) (qrCode : QrCode)
    (splitRuleId : Uuid) : Tx PaymentTransaction := do
  let id ← Tx.freshId
  let now ← Tx.now
  let nanoid ← Tx.nanoid
  if dto.amountKobo ≤ 0 then Tx.throw .checkViolation
  else do
    let payment : PaymentTransaction :=
      { id, externalReference := "pay_" ++ nanoid, provider := config.providerName
        venueId := qrCode.venueId, entertainerId := qrCode.entertainerId
        guestSessionId := dto.sessionId, grossAmountKobo := dto.amountKobo
        guestDisplayName := dto.guestDisplayName
        displayNameEnabled := dto.displayNameEnabled.getD false, splitRuleId := some splitRuleId
        status := .CREATED, createdAt := now, updatedAt := now }
    Model.paymentTransaction.create payment
    pure payment

/-- The error path: the payment is `FAILED`, whatever it was. -/
def failPayment (id : Uuid) : Prog App Unit :=
  statement (.initializePaymentFailed id) do
    let now ← Tx.now
    Model.paymentTransaction.update (·.id == id)
      (fun p => { p with status := .FAILED, updatedAt := now })

def checkout (config : PaymentsConfig) (dto : InitializePaymentDto) (s : ScannedSession)
    (payment : PaymentTransaction) : Prog App PaymentInitResponseDto := do
  let init ← (request (.initializePayment
    { reference := payment.externalReference, amountKobo := dto.amountKobo, email := dto.email
      callbackUrl := config.buildCallbackUrl payment.externalReference s.qrCode.publicToken
      transactionId := payment.id, venueId := s.qrCode.venueId
      entertainerId := s.qrCode.entertainerId })).attempt
  match init with
  | .ok init => pure ⟨payment.id, payment.externalReference, init.authorizationUrl, init.accessCode,
      dto.amountKobo, payment.status⟩
  | .error _ => do
    failPayment payment.id
    .raise (.badRequest "Failed to initialize payment. Please try again or contact support.")

def initializePayment (config : PaymentsConfig) (dto : InitializePaymentDto) :
    Prog App PaymentInitResponseDto := do
  let found ← statement (.initializePaymentSession dto.sessionId) do
    let now ← Tx.now
    let session ← Tx.read (findSession dto.sessionId)
    pure (session, now)
  match found with
  | (none, _) => .raise (.notFound "Guest session not found")
  | (some s, now) =>
    match sessionError now s with
    | some e => .raise e
    | none => do
      let splitRule ← (findActiveByVenue s.qrCode.venueId).attempt
      match splitRule with
      | .error e => .raise (noSplitConfiguration e)
      | .ok splitRule => do
        let payment ← statement .initializePaymentCreate
          (createPayment config dto s.qrCode splitRule.id)
        checkout config dto s payment

/-- A failure is logged; the webhook path will retry the settlement. -/
def settleIfOpen (reference : String) (status : PaymentStatus) : Prog App Unit :=
  if status = .CREATED ∨ status = .PENDING then do
    let _ ← (settle reference).attempt
    pure ()
  else pure ()

/-- The stored status is reported even when settling fails. -/
def getPaymentStatus (reference : String) : Prog App PaymentStatusResponseDto := do
  let existing ← query (.getPaymentStatusExisting reference)
    fun db => (db.payments.find (·.externalReference == reference)).map (·.status)
  match existing with
  | none => .raise (.notFound "Payment not found")
  | some status => do
    settleIfOpen reference status
    let found ← query (.getPaymentStatusPayment reference) fun db => do
      let payment ← db.payments.find (·.externalReference == reference)
      let venue ← db.venues.find (·.id == payment.venueId)
      pure (payment, venue,
        payment.entertainerId.bind fun e => db.entertainers.find (·.id == e))
    match found with
    | none => .raise .recordNotFound
    | some (payment, venue, entertainer) =>
      pure ⟨payment.id, payment.externalReference, payment.status, payment.grossAmountKobo,
        venue.name, entertainer.map (·.stageName), payment.createdAt, payment.updatedAt⟩

/-! ### The books under the guest's calls -/

/-- Where the error path may run: the payment is not `SUCCESS`. -/
def errorPathOpen : Site → Db → Prop
  | .initializePaymentFailed id, db => ∀ p ∈ db.payments.rows, p.id = id → p.status ≠ .SUCCESS
  | _, _ => True

variable {L : Type} {g s s' : Db} {w : Input}

lemma findActiveByVenue_sound {C : Site → Db → Prop} {venueId : Uuid} :
    Sound C L (findActiveByVenue venueId) g := by
  refine sound_statement fun w s rule s' _ _ hm => ⟨?_, ?_⟩
  · obtain ⟨n, h⟩ := Tx.run_ok.mp hm
    simp only [Tx.bind_ok, Tx.rank_ok, Tx.read_ok] at h
    obtain ⟨_, _, ⟨-, rfl⟩, -, h⟩ := h
    obtain rfl : s = s' := congrArg Prod.fst h
    exact .same
  · split
    · exact sound_ret
    · exact sound_raise

/-- What the creation of a payment adds. -/
lemma createPayment_ok {config : PaymentsConfig} {dto : InitializePaymentDto} {qrCode : QrCode}
    {ruleId : Uuid} {payment : PaymentTransaction} {σ σ' : Db × ℕ}
    (h : createPayment config dto qrCode ruleId w σ = .ok (payment, σ')) :
    ∃ t, σ.1.payments.insert payment = some t ∧ payment.status = .CREATED ∧
      payment.splitRuleId = some ruleId ∧ payment.grossAmountKobo = dto.amountKobo ∧
      σ'.1 = { σ.1 with payments := t } := by
  simp only [createPayment, Tx.bind_ok, Tx.freshId_ok, Tx.now_ok, Tx.nanoid_ok] at h
  obtain ⟨_, _, ⟨rfl, rfl⟩, _, _, ⟨rfl, rfl⟩, _, _, ⟨rfl, rfl⟩, h⟩ := h
  split at h
  · simp at h
  · simp only [Tx.bind_ok, Tx.pure_ok] at h
    obtain ⟨⟨⟩, σ₁, hcreate, rfl, rfl⟩ := h
    obtain ⟨t, ht, hσ⟩ := Model.create_ok hcreate
    exact ⟨t, ht, rfl, rfl, rfl, congrArg Prod.fst hσ⟩

lemma createPayment_change {config : PaymentsConfig} {dto : InitializePaymentDto} {qrCode : QrCode}
    {ruleId : Uuid} {payment : PaymentTransaction}
    (h : (createPayment config dto qrCode ruleId).run w s = .ok (payment, s')) : Change s s' := by
  obtain ⟨n, h⟩ := Tx.run_ok.mp h
  obtain ⟨t, ht, hcreated, -, -, rfl⟩ := createPayment_ok h
  exact .created _ t ht (by simp [hcreated])

lemma failPayment_sound {id : Uuid} : Sound errorPathOpen L (failPayment id) g := by
  refine sound_statement_last fun w s a s' _ hopen hm => ?_
  obtain ⟨n, h⟩ := Tx.run_ok.mp hm
  simp only [Model.update, Tx.bind_ok, Tx.now_ok] at h
  obtain ⟨_, _, ⟨rfl, rfl⟩, c, σ₁, hupd, h⟩ := h
  split at h
  · simp at h
  · simp only [Tx.pure_ok] at h
    obtain ⟨-, t, ht, rfl⟩ := Model.updateMany_ok hupd
    obtain rfl : s' = { s with payments := t } := (congrArg Prod.fst h.2).symm
    exact .payments _ _ t ht (fun _ => rfl)
      (fun p hp hid => hopen p hp (by simpa using hid)) fun _ => by simp

theorem initializePayment_sound {config : PaymentsConfig} {dto : InitializePaymentDto} :
    Sound errorPathOpen L (initializePayment config dto) g := by
  refine sound_statement fun w s found s' _ _ hm => ⟨?_, ?_⟩
  · obtain ⟨n, h⟩ := Tx.run_ok.mp hm
    simp only [Tx.bind_ok, Tx.now_ok, Tx.read_ok, Tx.pure_ok] at h
    obtain ⟨_, _, ⟨-, rfl⟩, _, _, ⟨-, rfl⟩, -, h⟩ := h
    obtain rfl : s = s' := congrArg Prod.fst h
    exact .same
  rcases found with ⟨_ | session, now⟩
  · exact sound_raise
  simp only
  split
  · exact sound_raise
  refine sound_bind (sound_attempt findActiveByVenue_sound) fun splitRule g => ?_
  rcases splitRule with e | splitRule
  · exact sound_raise
  refine sound_statement fun w s payment s' _ _ hm => ⟨createPayment_change hm, ?_⟩
  refine sound_bind (sound_attempt sound_request_last) fun init g => ?_
  rcases init with e | init
  · exact sound_bind failPayment_sound fun _ _ => sound_raise
  · exact sound_ret

lemma settleIfOpen_sound {C : Site → Db → Prop} {reference : String} {status : PaymentStatus} :
    Sound C L (settleIfOpen reference status) g := by
  unfold settleIfOpen
  split
  · exact sound_bind (sound_attempt settle_sound) fun _ _ => sound_ret
  · exact sound_ret

theorem getPaymentStatus_sound {C : Site → Db → Prop} {reference : String} :
    Sound C L (getPaymentStatus reference) g := by
  refine sound_query fun s _ => ?_
  split
  · exact sound_raise
  refine sound_bind settleIfOpen_sound fun _ g => sound_query fun s _ => ?_
  split
  · exact sound_raise
  · exact sound_ret

/-! ### Runs -/

inductive GuestOperation where
  | initializePayment (dto : InitializePaymentDto)
  | getPaymentStatus (reference : String)
  | service (o : Operation)

def GuestOperation.program (config : PaymentsConfig) : GuestOperation → Prog App Unit
  | .initializePayment dto => do let _ ← Money.initializePayment config dto
  | .getPaymentStatus reference => do let _ ← Money.getPaymentStatus reference
  | .service o => o.program

/-- The runs are all that writes payments; the rest of the system writes the other tables. -/
def guests (config : PaymentsConfig) : Outside App GuestOperation Unit Db where
  entry := GuestOperation.program config
  start _ _ x := some x
  move v db x := (elsewhere { v with payments := db.payments } db).map (·, x)

/-- Postings and payouts are of payments that exist. -/
structure References (db : Db) : Prop where
  postings : ∀ po ∈ db.postings, ∃ p ∈ db.payments.rows, p.id = po.transactionId
  payouts : ∀ p ∈ db.payouts.rows, ∃ q ∈ db.payments.rows, q.id = p.transactionId

/-- Every payment that is not in `db₀` has books that agree with its status. -/
def AllAccounted (db₀ db : Db) : Prop := References db ∧ ∀ payment ∈ db.payments.rows,
  (∀ q ∈ db₀.payments.rows, q.id ≠ payment.id) → Accounted db payment

variable {db₀ db db' : Db}

lemma references_keeps (hr : References db) (hk : Keeps db db')
    (hpost : ∀ po ∈ db'.postings, po ∈ db.postings ∨
      ∃ p ∈ db.payments.rows, p.id = po.transactionId)
    (hpay : ∀ o ∈ db'.payouts.rows.map obligation, o ∈ db.payouts.rows.map obligation ∨
      ∃ p ∈ db.payments.rows, p.id = o.transactionId) : References db' := by
  have hmem : ∀ id, (∃ p ∈ db.payments.rows, p.id = id) → ∃ p ∈ db'.payments.rows, p.id = id := by
    rintro id ⟨p, hp, rfl⟩
    obtain ⟨q, hq, hqp⟩ := mem_map_of_prefix hk.payments hp
    exact ⟨q, hq, (of_quoted hqp).1⟩
  refine ⟨fun po hpo => hmem _ ?_, fun p hp => hmem _ ?_⟩
  · exact (hpost po hpo).elim (hr.postings po) id
  · rcases hpay _ (List.mem_map_of_mem hp) with h | h
    · obtain ⟨q, hq, hob⟩ := List.mem_map.mp h
      have htx : q.transactionId = p.transactionId := congrArg Obligation.transactionId hob
      rw [← htx]; exact hr.payouts q hq
    · exact h

lemma change_references (hc : Change db db') (hr : References db) : References db' := by
  have hk := hc.keeps
  cases hc with
  | same => exact hr
  | payments guard update t ht hkeeps =>
    exact references_keeps hr hk (fun _ => .inl) fun _ => .inl
  | created p t ht => exact references_keeps hr hk (fun _ => .inl) fun _ => .inl
  | payouts guard update t ht hkeeps =>
    refine references_keeps hr hk (fun _ => .inl) fun o ho => .inl ?_
    rwa [Table.map_update hkeeps ht] at ho
  | settled s =>
    refine references_keeps hr hk (fun po hpo => ?_) fun o ho => ?_
    · rw [congrArg Db.postings s.after, List.mem_append, List.mem_singleton] at hpo
      rcases hpo with hpo | rfl
      · exact .inl hpo
      · exact .inr ⟨s.payment, s.payment_mem, rfl⟩
    · have hrows : db'.payouts.rows = db.payouts.rows ++ s.payouts :=
        (congrArg (fun d : Db => d.payouts.rows) s.after).trans s.payouts_rows
      rw [hrows, List.map_append, List.mem_append] at ho
      rcases ho with ho | ho
      · exact .inl ho
      · obtain ⟨spec, -, hw⟩ := exists_of_forall₂ s.owed ho
        exact .inr ⟨s.payment, s.payment_mem, hw.1.symm⟩
  | moved back m =>
    refine references_keeps hr hk (fun po hpo => ?_) fun o ho => .inl ?_
    · rw [congrArg Db.postings m.after, List.mem_append, List.mem_singleton] at hpo
      rcases hpo with hpo | rfl
      · exact .inl hpo
      · exact .inr (hr.payouts _ m.payout_mem)
    · have hrows := congrArg Db.payouts m.after
      rw [hrows, Table.map_update m.keeps m.updated] at ho
      exact ho

/-- A payment nobody has posted or owed anything for. -/
lemma accounted_fresh {payment : PaymentTransaction} (hr : References db)
    (hfresh : ∀ q ∈ db.payments.rows, q.id ≠ payment.id) (hmem : payment ∈ db'.payments.rows)
    (hstatus : payment.status ≠ .SUCCESS) (hpost : db'.postings = db.postings)
    (hpay : db'.payouts = db.payouts) : Accounted db' payment := by
  refine ⟨hmem, fun _ => ⟨?_, ?_⟩, fun hs => absurd hs hstatus⟩
  · rw [settlementsOf, hpost, List.filter_eq_nil_iff]
    intro po hpo hc
    obtain ⟨q, hq, hid⟩ := hr.postings po hpo
    exact hfresh q hq (hid.trans (of_decide_eq_true hc).2)
  · rw [obligationsOf, hpay, List.filter_eq_nil_iff]
    intro o ho hc
    obtain ⟨p, hp, rfl⟩ := List.mem_map.mp ho
    obtain ⟨q, hq, hid⟩ := hr.payouts p hp
    exact hfresh q hq (hid.trans (of_decide_eq_true hc))

/-- Every payment after a change was there before, or is new and unsettled. -/
lemma change_payments (hc : Change db db') {payment : PaymentTransaction}
    (hmem : payment ∈ db'.payments.rows) :
    (∃ q ∈ db.payments.rows, quoted q = quoted payment) ∨
      (∀ q ∈ db.payments.rows, q.id ≠ payment.id) ∧ payment.status ≠ .SUCCESS ∧
        db'.postings = db.postings ∧ db'.payouts = db.payouts := by
  have hupdate : ∀ {t : Table PaymentTransaction} {guard update},
      (∀ p : PaymentTransaction, quoted (update p) = quoted p) →
      db.payments.update guard update = some t → payment ∈ t.rows →
      ∃ q ∈ db.payments.rows, quoted q = quoted payment := by
    intro t guard update hkeeps ht hmem
    have hquoted := List.mem_map_of_mem (f := quoted) hmem
    rw [Table.map_update hkeeps ht] at hquoted
    exact List.mem_map.mp hquoted
  cases hc with
  | same => exact .inl ⟨payment, hmem, rfl⟩
  | payouts => exact .inl ⟨payment, hmem, rfl⟩
  | payments guard update t ht hkeeps => exact .inl (hupdate hkeeps ht hmem)
  | created p t ht hstatus =>
    rw [Table.rows_insert ht, List.mem_append, List.mem_singleton] at hmem
    rcases hmem with hmem | rfl
    · exact .inl ⟨payment, hmem, rfl⟩
    · refine .inr ⟨fun q hq hid => ?_, hstatus, rfl, rfl⟩
      exact Table.insert_fresh ht hq (k := .id q.id) (by simp [Indexed.keys])
        (by simp [Indexed.keys, hid])
  | settled s =>
    rw [congrArg Db.payments s.after] at hmem
    have hkeeps : ∀ p, quoted { p with status := .SUCCESS, updatedAt := s.now } = quoted p :=
      fun _ => rfl
    exact .inl (hupdate hkeeps s.claimed hmem)
  | moved back m =>
    rw [congrArg Db.payments m.after] at hmem
    exact .inl ⟨payment, hmem, rfl⟩

/-- **Every change keeps the books of all new payments.** -/
theorem change_allAccounted (hc : Change db db') (h : AllAccounted db₀ db) :
    AllAccounted db₀ db' := by
  refine ⟨change_references hc h.1, fun payment hmem hnew => ?_⟩
  rcases change_payments hc hmem with ⟨q, hq, hquoted⟩ | ⟨hfresh, hstatus, hpost, hpay⟩
  · have hid := (of_quoted hquoted).1
    have hacc : Accounted db q := h.2 q hq fun r hr hrq => hnew r hr (hrq.trans hid)
    obtain ⟨payment', hquoted', hacc', -⟩ := change_accounted hc hacc
    have hid' := (of_quoted hquoted').1
    obtain rfl : payment' = payment :=
      Table.eq_of_key (k := .id payment.id) hacc'.mem hmem (by simp [Indexed.keys, hid', hid])
        (by simp [Indexed.keys])
    exact hacc'
  · exact accounted_fresh h.1 hfresh hmem hstatus hpost hpay

lemma elsewhere_allAccounted {v : Db} (he : elsewhere { v with payments := db.payments } db = some db')
    (h : AllAccounted db₀ db) : AllAccounted db₀ db' := by
  obtain ⟨-, -, hpost, hpay⟩ := elsewhere_keeps he
  have hpayments : db'.payments = db.payments := by
    unfold elsewhere at he
    split at he <;> cases he
    rfl
  refine ⟨⟨?_, ?_⟩, fun payment hmem hnew => ?_⟩
  · rw [hpost, hpayments]; exact h.1.postings
  · rw [hpay, hpayments]; exact h.1.payouts
  · rw [hpayments] at hmem
    exact elsewhere_accounted he (h.2 payment hmem hnew)

lemma guestProgram_sound {config : PaymentsConfig} (o : GuestOperation) :
    Sound errorPathOpen L (o.program config) g := by
  cases o with
  | initializePayment dto => exact sound_bind initializePayment_sound fun _ _ => sound_ret
  | getPaymentStatus reference => exact sound_bind getPaymentStatus_sound fun _ _ => sound_ret
  | service o => exact program_sound o

lemma guests_move {config : PaymentsConfig} {v db db' : Db} {x x' : Unit}
    (h : (guests config).move v db x = some (db', x')) :
    elsewhere { v with payments := db.payments } db = some db' := by
  obtain ⟨_, helse, heq⟩ := Option.map_eq_some_iff.mp h
  cases heq
  exact helse

/-- What every change keeps while the error path meets only open payments, and the rest of the
system too, holds throughout. -/
theorem guests_keep {config : PaymentsConfig} {J : Db → Prop}
    (hchange : ∀ db db', Change db db' → J db → J db')
    (helse : ∀ v db db' : Db,
      elsewhere { v with payments := db.payments } db = some db' → J db → J db')
    {p₀ p : Pool App GuestOperation Unit}
    (h₀ : Steady Keeps Change errorPathOpen p₀)
    (h : Reach (guests config) (Meets errorPathOpen) p₀ p) (hJ : J p₀.store) :
    Steady Keeps Change errorPathOpen p ∧ J p.store := by
  have hentry : ∀ o db, Obeys (books errorPathOpen GuestOperation) (fun _ _ => True)
    ((guests config).entry o) db := fun o _ => guestProgram_sound o
  exact steady_keeps (G := Keeps) Keeps.refl (fun _ _ _ => Keeps.trans) hentry
    (fun v db x db' x' hm => (elsewhere_keeps (guests_move hm)).1) (fun p ev hm => hm)
    (fun db db' _ => hchange db db') (fun v db x db' x' hm => helse v db db' (guests_move hm)) h₀ h hJ

/-- Wherever the allowed runs lead, each payment made on the way has been settled at most once;
and if it has, it is `SUCCESS` from then on. -/
def SettledForGood (config : PaymentsConfig)
    (ok : Pool App GuestOperation Unit → Event App GuestOperation Db → Prop)
    (p₀ : Pool App GuestOperation Unit) : Prop :=
  ∀ p, Reach (guests config) ok p₀ p → ∀ payment ∈ p.store.payments.rows,
    (∀ q ∈ p₀.store.payments.rows, q.id ≠ payment.id) →
    (settlementsOf p.store payment.id).length ≤ 1 ∧
    (settlementsOf p.store payment.id ≠ [] → ∀ p', Reach (guests config) ok p p' →
      ∃ later ∈ p'.store.payments.rows, later.id = payment.id ∧ later.status = .SUCCESS)

/-- **A settled payment stays settled as long as the error path meets no settled payment.** -/
theorem settled_for_good (config : PaymentsConfig) {p₀ : Pool App GuestOperation Unit}
    (hruns : p₀.runs = []) (href : References p₀.store) :
    SettledForGood config (Meets errorPathOpen) p₀ := by
  intro p hp payment hmem hnew
  obtain ⟨hsteady, -, hall⟩ := guests_keep (J := AllAccounted p₀.store)
    (fun _ _ => change_allAccounted) (fun _ _ _ => elsewhere_allAccounted) (steady_start hruns) hp
    ⟨href, fun q hq hnew => absurd rfl (hnew q hq)⟩
  have hacc : Accounted p.store payment := hall payment hmem hnew
  refine ⟨hacc.length_le, fun hposted p' hp' => ?_⟩
  have hsuccess : payment.status = .SUCCESS := by
    by_contra hne
    exact hposted (hacc.unsettled hne).1
  obtain ⟨-, later, hq, hlater, hstatus⟩ := guests_keep (J := AccountedAs payment)
    (fun db db' hc ⟨x, hq, hx, hs⟩ => by
      obtain ⟨y, hyq, hy, hys⟩ := change_accounted hc hx
      exact ⟨y, hyq.trans hq, hy, fun h => hys (hs h)⟩)
    (fun v db db' he ⟨x, hq, hx, hs⟩ => ⟨x, hq, elsewhere_accounted he hx, hs⟩)
    hsteady hp' ⟨payment, rfl, hacc, id⟩
  exact ⟨later, hlater.mem, (of_quoted hq).1, hstatus hsuccess⟩

/-! ### A run: the provider's answer is lost after the webhook has settled the payment -/

def sampleVenue : Venue :=
  { id := uid 2, name := "Bar", slug := "bar", isActive := true, bankName := none, bankCode := none
    accountNumber := none, resolvedAccountName := none, accountResolvedAt := none
    accountConfirmedAt := none }

lemma sampleVenue_keys : ([sampleVenue].flatMap Indexed.keys).Nodup := by decide

def guestDb : Db :=
  { splitRules := ⟨[sampleRule], sampleRule_keys⟩
    entertainers := ⟨[sampleEntertainer], sampleEntertainer_keys⟩
    venues := ⟨[sampleVenue], sampleVenue_keys⟩
    qrCodes := ⟨[⟨uid 6, "qr", uid 2, some (uid 3), "Table 5", true, none⟩], by decide⟩
    guestSessions := ⟨[⟨uid 4, uid 6, 100⟩], by decide⟩ }

def sampleConfig : PaymentsConfig := ⟨"paystack", fun reference _ => some reference⟩

def sampleDto : InitializePaymentDto := ⟨uid 4, 10000, none, none, none⟩

/-- The payment is created, and the call to the provider is under way. -/
def checkedOut : List (Event App GuestOperation Db) :=
  .start (.initializePayment sampleDto) :: execs 0 [1, 2, 3] ++ [.send 0]

/-- The webhook's run settles it. -/
def webhookSettles : List (Event App GuestOperation Db) :=
  .start (.service (.settle "pay_nanoid")) :: execs 1 [4] ++ asks 1 agreeable ++ execs 1 [5, 6]

/-- The call throws, and the error path writes. -/
def answerLost : List (Event App GuestOperation Db) :=
  [.answer 0 fun _ => .error (.outside "socket hang up"), .exec 0 (inputAt 7)]

theorem settled_for_good_sample :
    References guestDb ∧ SettledForGood sampleConfig (Meets errorPathOpen) ⟨guestDb, (), []⟩ := by
  have href : References guestDb := ⟨by simp [guestDb], by simp [guestDb, Table.empty]⟩
  exact ⟨href, settled_for_good sampleConfig rfl href⟩

/-- A payment posted in `db` is `FAILED` in `db'`. -/
def undone (db db' : Db) : Bool := db.payments.rows.any fun payment =>
  !(settlementsOf db payment.id).isEmpty &&
    db'.payments.rows.all fun later => later.id != payment.id || later.status == .FAILED

/-- The settled payment is `FAILED` in the end. -/
theorem settlement_undone : ¬ SettledForGood sampleConfig anyEvent ⟨guestDb, (), []⟩ := by
  intro h
  have hrun : ((run (guests sampleConfig) ⟨guestDb, (), []⟩ (checkedOut ++ webhookSettles)).any
      fun p => (run (guests sampleConfig) p answerLost).any fun p' => undone p.store p'.store) = true := by
    decide +kernel
  obtain ⟨p, hp, hany⟩ := (Option.any_eq_true _ _).mp hrun
  obtain ⟨p', hp', hundone⟩ := (Option.any_eq_true _ _).mp hany
  obtain ⟨payment, hmem, hposted⟩ := List.any_eq_true.mp hundone
  simp only [Bool.and_eq_true, Bool.not_eq_true', List.isEmpty_eq_false_iff, List.all_eq_true,
    Bool.or_eq_true, bne_iff_ne, beq_iff_eq] at hposted
  have hgood := h p (reach_of_run (along_any _) hp) payment hmem (by simp [guestDb, Table.empty])
  obtain ⟨later, hlater, hid, hstatus⟩ :=
    hgood.2 hposted.1 p' (reach_of_run (along_any _) hp')
  rcases hposted.2 later hlater with hne | hfailed
  · exact hne hid
  · rw [hstatus] at hfailed; cases hfailed

end Splitcore.Money
