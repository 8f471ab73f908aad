import Splitcore.Interleaving.Outcome
import Splitcore.Money.Checkout
import Splitcore.Money.Committed
import Splitcore.Webhooks.Ingest

/-!
The status poll and the `charge.success` webhook side by side: what each of them comes to from the same
state, with the same answers.
-/

namespace Splitcore.Webhooks

open Relational Interleaving Ledger Money

/-- What settling is about: the statuses of the payments, the ledger, and the payouts. -/
def moneyOf (db : Db) : List (Uuid × PaymentStatus) × Table LedgerAccount × List Posting × Table Payout :=
  (db.payments.rows.map fun p => (p.id, p.status), db.ledgerAccounts, db.postings, db.payouts)

/-- With other webhook events. -/
def withEvents (t : Table WebhookEvent) (db : Db) : Db := { db with webhookEvents := t }

/-- A settlement of the payment would go through: the provider confirms the charge, the snapshot divides
it, and none of its payouts is stored. -/
structure Due (o : (q : Ask) → Except Err (Ans q)) (db : Db) (payment : PaymentTransaction)
    (entries : List LedgerEntrySpec) : Prop where
  verified : ∃ v, o (.verifyPayment payment.externalReference) = .ok v ∧ v.status = .success ∧
    integrityError payment v = none
  divided : ∃ id rule, payment.splitRuleId = some id ∧ db.splitRules.find (·.id == id) = some rule ∧
    computePaymentEntries (paymentForPosting payment) (splitForPosting rule) = .ok entries
  free : ∀ e ∈ entries.filter isObligation, Free payment.id e db

/-- A payment with a settlement due that the poll takes for closed. -/
def Overlooked (o : (q : Ask) → Except Err (Ans q)) (db : Db) (reference : String) : Prop :=
  ∃ payment entries, db.payments.find (·.externalReference == reference) = some payment ∧
    (payment.status = .FAILED ∨ payment.status = .ABANDONED) ∧ Due o db payment entries

/-- As many identifiers as a settlement draws at most: it has four lines. -/
def DRAWN : ℕ := 12

variable {α : Type} {w : Input} {o : (q : Ask) → Except Err (Ans q)} {db db' : Db} {t : Table WebhookEvent}
  {site : Site} {m : Tx α} {reference : String} {payment : PaymentTransaction} {id : Uuid}

lemma statuses_of_money (h : moneyOf db = moneyOf db') : db.payments.rows.map (fun p => (p.id, p.status)) =
    db'.payments.rows.map fun p => (p.id, p.status) := congrArg Prod.fst h

/-! ### A settlement does not look at webhook events -/

lemma statement_ignores {put : Db → Db} (h : m.Ignores put) : (statement site m).Ignores put :=
  Prog.ignores_command fun _ _ => h.run

lemma payments_apart : Model.paymentTransaction.Apart (withEvents t) := ⟨fun _ => rfl, fun _ _ => rfl⟩

lemma accounts_apart : Model.ledgerAccount.Apart (withEvents t) := ⟨fun _ => rfl, fun _ _ => rfl⟩

lemma payouts_apart : Model.payout.Apart (withEvents t) := ⟨fun _ => rfl, fun _ _ => rfl⟩

lemma splitRules_apart : Model.splitRule.Apart (withEvents t) := ⟨fun _ => rfl, fun _ _ => rfl⟩

lemma resolveAccountId_ignores {type : LedgerAccountType} {owner : Option Uuid} :
    (resolveAccountId type owner).Ignores (withEvents t) := by
  refine Tx.ignores_bind (Tx.ignores_bind Tx.ignores_freshId fun id => ?_) fun _ => ?_
  · refine Tx.ignores_bind accounts_apart.findFirst fun existing => ?_
    split
    · exact accounts_apart.create
    · exact Tx.ignores_pure
  · refine Tx.ignores_bind accounts_apart.findFirst fun account => ?_
    cases account
    · exact Tx.ignores_throw
    · exact Tx.ignores_pure

lemma accountIds_ignores {specs : List LedgerEntrySpec} {ids : AccountIds} :
    (accountIds specs ids).Ignores (withEvents t) := by
  induction specs generalizing ids with
  | nil => exact Tx.ignores_pure
  | cons spec specs ih =>
    unfold accountIds
    split
    · exact ih
    · exact Tx.ignores_bind resolveAccountId_ignores fun id => ih

lemma post_ignores {origin : Origin} {txId : Uuid} {specs : List LedgerEntrySpec} :
    (post origin txId specs).Ignores (withEvents t) :=
  Tx.ignores_bind Tx.ignores_liftExcept fun _ => Tx.ignores_bind accountIds_ignores fun _ =>
    Tx.ignores_bind Tx.ignores_now fun _ => Tx.ignores_write fun _ => rfl

lemma createPayouts_ignores {txId : Uuid} {specs : List LedgerEntrySpec} :
    (createPayouts txId specs).Ignores (withEvents t) := by
  induction specs with
  | nil => exact Tx.ignores_pure
  | cons spec specs ih =>
    unfold createPayouts
    split
    · exact ih
    · refine Tx.ignores_bind resolveAccountId_ignores fun account => Tx.ignores_bind ?_ fun id =>
        Tx.ignores_bind ih fun ids => Tx.ignores_pure
      refine Tx.ignores_bind Tx.ignores_freshId fun id => Tx.ignores_bind Tx.ignores_now fun now => ?_
      split
      · exact Tx.ignores_throw
      · exact Tx.ignores_bind payouts_apart.create fun _ => Tx.ignores_pure

lemma settleTransaction_ignores {specs : List LedgerEntrySpec} :
    (settleTransaction id specs).Ignores (withEvents t) := by
  refine Tx.ignores_bind (Tx.ignores_bind Tx.ignores_now fun now => payments_apart.updateMany) fun count => ?_
  split
  · exact Tx.ignores_pure
  · exact Tx.ignores_bind post_ignores fun _ => Tx.ignores_bind createPayouts_ignores fun ids => Tx.ignores_pure

lemma transition_ignores {source : List PaymentStatus} {target : PaymentStatus} :
    (transition id source target).Ignores (withEvents t) :=
  statement_ignores (Tx.ignores_bind Tx.ignores_now fun _ => Tx.ignores_bind payments_apart.updateMany fun _ =>
    Tx.ignores_pure)

lemma reload_ignores : (some <$> reload id).Ignores (withEvents t) :=
  Prog.ignores_bind (statement_ignores payments_apart.findUniqueOrThrow) fun _ => trivial

lemma enqueuePayouts_ignores {ids : List Uuid} : (enqueuePayouts ids).Ignores (withEvents t) := by
  induction ids with
  | nil => trivial
  | cons id ids ih => exact Prog.ignores_bind (Prog.ignores_attempt Prog.ignores_request) fun _ => ih

lemma settleVerified_ignores : (settleVerified reference payment).Ignores (withEvents t) := by
  unfold settleVerified
  split
  · trivial
  refine Prog.ignores_bind (statement_ignores splitRules_apart.findUniqueOrThrow) fun rule =>
    Prog.ignores_bind Prog.ignores_ofExcept fun entries =>
    Prog.ignores_bind (statement_ignores settleTransaction_ignores) fun settled => ?_
  cases settled
  · exact reload_ignores
  · exact Prog.ignores_bind enqueuePayouts_ignores fun _ => reload_ignores

lemma settle_ignores : (settle reference).Ignores (withEvents t) := by
  refine Prog.ignores_bind (Prog.ignores_query fun _ => rfl) fun found => ?_
  rcases found with _ | payment
  · trivial
  dsimp only
  split
  · trivial
  refine Prog.ignores_bind Prog.ignores_request fun verification => ?_
  split
  · exact Prog.ignores_bind transition_ignores fun _ => reload_ignores
  · exact Prog.ignores_bind transition_ignores fun _ => reload_ignores
  · exact Prog.ignores_bind transition_ignores fun _ => reload_ignores
  · split
    · trivial
    · exact settleVerified_ignores

/-! ### What a settlement comes to -/

lemma reload_outcome : (outcome w o (some <$> reload id) db).2 = db := by
  rw [Prog.map_eq, outcome_bind]
  rcases hrun : (Model.paymentTransaction.findUniqueOrThrow (·.id == id)).run w db with e | ⟨p, db'⟩
  · rw [reload, outcome_statement_error hrun]
  · obtain ⟨n, hn⟩ := Tx.run_ok.mp hrun
    obtain ⟨-, hsame⟩ := Model.findUniqueOrThrow_ok hn
    rw [reload, outcome_statement_ok hrun]
    exact congrArg Prod.fst hsame

lemma enqueuePayouts_outcome {ids : List Uuid} : outcome w o (enqueuePayouts ids) db = (.ok (), db) := by
  induction ids with
  | nil => rfl
  | cons id ids ih =>
    unfold enqueuePayouts
    rw [Prog.bind_eq, outcome_bind_ok outcome_attempt, request_outcome]
    exact ih

/-- A transition from statuses the payment is not in. -/
lemma transition_outcome {source : List PaymentStatus} {target : PaymentStatus}
    (h : ∀ p ∈ db.payments.rows, p.id = id → source.contains p.status = false) :
    outcome w o (transition id source target) db = (.ok (), db) := by
  obtain ⟨n, σ, hupd⟩ := Model.updateMany_of_keys (M := Model.paymentTransaction) (w := w) (σ := (db, 0))
    (p := fun p => p.id == id && source.contains p.status)
    (f := fun p => { p with status := target, updatedAt := w.now }) fun _ _ => rfl
  have hzero : n = 0 := by
    rw [(Model.updateMany_ok hupd).1, List.countP_eq_zero]
    intro p hp hguard
    simp only [Bool.and_eq_true, beq_iff_eq] at hguard
    rw [h p hp hguard.1] at hguard
    exact absurd hguard.2 (by simp)
  subst hzero
  obtain rfl := Model.updateMany_zero hupd
  refine outcome_statement_ok (Tx.run_ok.mpr ⟨0, ?_⟩)
  simp only [Tx.bind_ok, Tx.now_ok]
  exact ⟨_, _, ⟨rfl, rfl⟩, 0, _, hupd, rfl⟩

lemma findUniqueOrThrow_runs {ρ : Type} [Indexed ρ Key] {M : Model ρ} {p : ρ → Bool} {r : ρ}
    (h : (M.get db).find p = some r) : (M.findUniqueOrThrow p).run w db = .ok (r, db) := by
  rw [Tx.run_ok]
  refine ⟨0, ?_⟩
  rw [Model.findUniqueOrThrow, Tx.bind_ok]
  exact ⟨some r, (db, 0), Model.findFirst_ok.mpr ⟨h, rfl⟩, rfl⟩

/-- A rule that is not stored, or does not divide the payment; or a transaction that is rolled back. -/
lemma settleVerified_outcome {v : PaymentVerification} (hv : o (.verifyPayment payment.externalReference) = .ok v)
    (hstatus : v.status = .success) (hmatches : integrityError payment v = none)
    (hnot : ∀ entries, ¬Due o db payment entries) :
    (outcome w o (settleVerified reference payment) db).2 = db := by
  unfold settleVerified
  split
  · rfl
  rename_i ruleId hrule
  rcases hfind : db.splitRules.find (·.id == ruleId) with _ | rule
  · have hrun : (Model.splitRule.findUniqueOrThrow (·.id == ruleId)).run w db = .error .recordNotFound := by
      rw [Tx.run_error, Model.findUniqueOrThrow, Tx.bind_error]
      exact .inr ⟨none, (db, 0), Model.findFirst_ok.mpr ⟨hfind, rfl⟩, rfl⟩
    rw [Prog.bind_eq, outcome_bind_error (outcome_statement_error hrun)]
  rw [Prog.bind_eq, outcome_bind_ok (outcome_statement_ok (findUniqueOrThrow_runs hfind))]
  rcases hentries : computePaymentEntries (paymentForPosting payment) (splitForPosting rule) with e | entries
  · rfl
  rw [Prog.bind_eq, outcome_bind_ok (outcome_ofExcept _), Prog.bind_eq]
  rcases hsettle : (settleTransaction payment.id entries).run w db with e | ⟨_ | ids, db'⟩
  · rw [outcome_bind_error (outcome_statement_error hsettle)]
  · rw [outcome_bind_ok (outcome_statement_ok hsettle), settleTransaction_none hsettle]
    exact reload_outcome
  · exact absurd ⟨⟨v, hv, hstatus, hmatches⟩, ⟨ruleId, rule, hrule, hfind, hentries⟩,
      (settleTransaction_some hsettle).2⟩ (hnot entries)

/-- The rows of a payment. -/
lemma eq_of_payment_id {p : PaymentTransaction} (hp : p ∈ db.payments.rows) (hmem : payment ∈ db.payments.rows)
    (hid : p.id = payment.id) : p = payment :=
  Table.eq_of_key (k := .id payment.id) hp hmem (by simp [Indexed.keys, hid]) (by simp [Indexed.keys])

/-- **A closed payment is left alone** where no settlement is due. -/
lemma settle_outcome (hfind : db.payments.find (·.externalReference == reference) = some payment)
    (hclosed : payment.status = .FAILED ∨ payment.status = .ABANDONED) (hnot : ∀ entries, ¬Due o db payment entries) :
    (outcome w o (settle reference) db).2 = db := by
  have hmem := Table.mem_of_find hfind
  have href : payment.externalReference = reference := by simpa using Table.of_find hfind
  have hopen : SETTLEABLE.contains payment.status = true := by
    rcases hclosed with h | h <;> rw [h] <;> rfl
  have hsource : ∀ source : List PaymentStatus, source.contains .FAILED = false → source.contains .ABANDONED = false →
      ∀ p ∈ db.payments.rows, p.id = payment.id → source.contains p.status = false := by
    intro source hfailed habandoned p hp hid
    obtain rfl := eq_of_payment_id hp hmem hid
    rcases hclosed with h | h <;> rw [h] <;> assumption
  unfold settle
  rw [Prog.bind_eq, outcome_bind_ok query_outcome, hfind]
  simp only [hopen, Bool.not_true, Bool.false_eq_true, if_false]
  rw [Prog.bind_eq, outcome_bind, request_outcome]
  rcases hv : o (.verifyPayment reference) with e | v
  · rfl
  rcases hstatus : v.status with _ | _ | _ | _ <;> simp only [hstatus]
  · rcases hmatches : integrityError payment v with _ | message
    · exact settleVerified_outcome (href ▸ hv) hstatus hmatches hnot
    · rfl
  · rw [Prog.bind_eq, outcome_bind_ok (transition_outcome (hsource _ rfl rfl))]
    exact reload_outcome
  · rw [Prog.bind_eq, outcome_bind_ok (transition_outcome (hsource _ rfl rfl))]
    exact reload_outcome
  · rw [Prog.bind_eq, outcome_bind_ok (transition_outcome (hsource _ rfl rfl))]
    exact reload_outcome

/-! ### A settlement that is due -/

lemma paymentEntries_length {p : PaymentForPosting} {split : SplitForPosting} :
    3 * (paymentEntries p split).length ≤ DRAWN := by
  have hline : ∀ type owner x, (line type owner x).length ≤ 1 := fun type owner x => by
    unfold line
    split <;> simp
  have h₁ := hline .ENTERTAINER_PAYABLE p.entertainerId (entertainerShare p split)
  have h₂ := hline .VENUE_PAYABLE (some p.venueId) (venueShare p split)
  have h₃ := hline .PLATFORM_REVENUE none (platformShare p split)
  simp only [paymentEntries, List.length_cons, List.length_append, DRAWN]
  omega

/-- The obligations of a payment are on different accounts. -/
lemma obligations_distinct {p : PaymentForPosting} {split : SplitForPosting} :
    ((paymentEntries p split).filter isObligation).Pairwise fun e e' =>
      (e.accountType, e.ownerId) ≠ (e'.accountType, e'.ownerId) := by
  have hpairs : ∀ type owner x, (line type owner x).Pairwise fun e e' =>
      (e.accountType, e.ownerId) ≠ (e'.accountType, e'.ownerId) := fun type owner x => by
    unfold line
    split <;> simp
  have hplatform : (line .PLATFORM_REVENUE none (platformShare p split)).filter isObligation = [] := by
    unfold line
    split <;> rfl
  have hclearing : isObligation ⟨.PROCESSOR_CLEARING, none, .DEBIT, p.grossAmountKobo⟩ = false := rfl
  rw [paymentEntries, List.filter_cons_of_neg (by simp [hclearing]), List.filter_append, List.filter_append, hplatform,
    List.append_nil, List.pairwise_append]
  refine ⟨(hpairs _ _ _).filter _, (hpairs _ _ _).filter _, fun e he e' he' heq => ?_⟩
  obtain ⟨-, rfl⟩ := mem_line.mp (List.mem_filter.mp he).1
  obtain ⟨-, rfl⟩ := mem_line.mp (List.mem_filter.mp he').1
  cases heq

/-- **It settles.** -/
lemma settle_due {entries : List LedgerEntrySpec} (hunused : Unused w DRAWN (db, 0))
    (hfind : db.payments.find (·.externalReference == reference) = some payment)
    (hopen : SETTLEABLE.contains payment.status = true) (hdue : Due o db payment entries) :
    ∃ row ∈ (outcome w o (settle reference) db).2.payments.rows, row.id = payment.id ∧ row.status = .SUCCESS := by
  obtain ⟨⟨v, hv, hstatus, hmatches⟩, ⟨ruleId, rule, hrule, hfindRule, hentries⟩, hfree⟩ := hdue
  have href : payment.externalReference = reference := by simpa using Table.of_find hfind
  obtain ⟨hbalanced, hlines⟩ := computePaymentEntries_ok hentries
  obtain ⟨ids, db', hrun⟩ := settleTransaction_commits hunused (by rw [hlines]; exact paymentEntries_length)
    (Table.mem_of_find hfind) hopen hbalanced (by rw [hlines]; exact obligations_distinct) hfree
  have hstate : (outcome w o (settle reference) db).2 = db' := by
    unfold settle
    rw [Prog.bind_eq, outcome_bind_ok query_outcome, hfind]
    simp only [hopen, Bool.not_true, Bool.false_eq_true, if_false]
    rw [Prog.bind_eq, outcome_bind, request_outcome, ← href, hv]
    simp only [hstatus, hmatches, settleVerified, hrule]
    rw [Prog.bind_eq, outcome_bind_ok (outcome_statement_ok (findUniqueOrThrow_runs hfindRule)), hentries, Prog.bind_eq,
      outcome_bind_ok (outcome_ofExcept _), Prog.bind_eq, outcome_bind_ok (outcome_statement_ok hrun)]
    simp only
    rw [Prog.bind_eq, outcome_bind_ok enqueuePayouts_outcome]
    exact reload_outcome
  rw [hstate]
  exact (settleTransaction_some hrun).1

/-! ### The webhook -/

/-- What a statement that writes webhook events leaves. -/
lemma statement_money (h : m.Leaves moneyOf) : moneyOf (outcome w o (statement site m) db).2 = moneyOf db := by
  rcases hrun : m.run w db with e | ⟨a, db'⟩
  · rw [outcome_statement_error hrun]
  · rw [outcome_statement_ok hrun]
    exact h.run hrun

lemma setStatus_money {status : ProcessingStatus} : (setStatus id status).Leaves moneyOf :=
  Model.update_leaves fun _ _ => rfl

lemma event_id {event : WebhookEvent} (hfind : db.webhookEvents.find (·.id == id) = some event) : event.id = id := by
  have hcond := Table.of_find (p := fun e : WebhookEvent => e.id == id) hfind
  simpa using hcond

/-- The status of a stored event can be written. -/
lemma setStatus_runs {event : WebhookEvent} (status : ProcessingStatus)
    (hfind : db.webhookEvents.find (·.id == id) = some event) :
    ∃ t, (setStatus id status).run w db = .ok ((), withEvents t db) := by
  obtain ⟨n, σ, hupd⟩ := Model.updateMany_of_keys (M := Model.webhookEvent) (w := w) (σ := (db, 0))
    (p := (·.id == id)) (f := fun e => { e with processingStatus := status }) fun _ _ => rfl
  obtain ⟨hcount, t, -, rfl⟩ := Model.updateMany_ok hupd
  have hsome : n ≠ 0 := by
    rw [hcount, ne_eq, List.countP_eq_zero]
    exact fun hall => hall event (Table.mem_of_find hfind) (by simp [event_id hfind])
  refine ⟨t, Tx.run_ok.mpr ⟨0, ?_⟩⟩
  rw [setStatus, Model.update, Tx.bind_ok]
  exact ⟨n, _, hupd, by rw [if_neg hsome]; rfl⟩

/-- **The webhook settles**, and records what came of it. -/
lemma handle_outcome {event : WebhookEvent} (hfind : db.webhookEvents.find (·.id == id) = some event)
    (htype : event.eventType = "charge.success") (hreference : payloadReference event.payload = some reference)
    (hopen : event.processingStatus ≠ .COMPLETED) :
    moneyOf (outcome w o (handle id) db).2 = moneyOf (outcome w o (settle reference) db).2 := by
  have hid : event.id = id := event_id hfind
  obtain ⟨t, hrun⟩ := setStatus_runs (w := w) .PROCESSING hfind
  rcases hsettle : outcome w o (settle reference) db with ⟨res, db'⟩
  have hprocess : outcome w o (process event) (withEvents t db) = (res.map fun _ => (), withEvents t db') := by
    simp only [process, hreference, htype, if_true, Prog.bind_eq, outcome_bind]
    rw [outcome_ignores settle_ignores, hsettle]
    cases res <;> rfl
  unfold handle
  rw [Prog.bind_eq, outcome_bind_ok query_outcome, hfind]
  simp only [hopen, if_false, hid]
  rw [Prog.bind_eq, outcome_bind_ok (outcome_statement_ok hrun), Prog.bind_eq, outcome_bind_ok outcome_attempt, hprocess,
    hsettle]
  -- what is left to be done is written on the event
  rcases res with e | p
  · have hparked : moneyOf (outcome w o (statement (.webhookParked id) (setStatus id .FAILED)) (withEvents t db')).2 =
        moneyOf db' := statement_money setStatus_money
    have hfailed : moneyOf (outcome w o (statement (.webhookFailed id) (setStatus id .FAILED)) (withEvents t db')).2 =
        moneyOf db' := statement_money setStatus_money
    have hraise : moneyOf (outcome w o (statement (.webhookFailed id) (setStatus id .FAILED) >>= fun _ =>
        (.raise e : Prog App Unit)) (withEvents t db')).2 = moneyOf db' := by
      rw [Prog.bind_eq, outcome_bind]
      rcases houtcome : outcome w o (statement (.webhookFailed id) (setStatus id .FAILED)) (withEvents t db') with
        ⟨_ | _, db''⟩ <;> rw [houtcome] at hfailed ⊢ <;> exact hfailed
    cases e with
    | settlementIntegrity => exact hparked
    | _ => exact hraise
  · exact statement_money (m := _) (Tx.leaves_now fun _ => Model.update_leaves fun _ _ => rfl)

/-! ### The poll -/

/-- A read, when what comes after leaves the state. -/
lemma reading_leaves {α β : Type} {site : Site} {f : Db → α} {k : α → Prog App β}
    (hk : ∀ a, (outcome w o (k a) db).2 = db) : (outcome w o (query site f >>= k) db).2 = db := by
  rw [Prog.bind_eq, outcome_bind_ok query_outcome]
  exact hk _

lemma getPaymentStatus_outcome : (outcome w o (getPaymentStatus reference) db).2 =
    match db.payments.find (·.externalReference == reference) with
    | some payment =>
      if payment.status = .CREATED ∨ payment.status = .PENDING then (outcome w o (settle reference) db).2 else db
    | none => db := by
  unfold getPaymentStatus
  rw [Prog.bind_eq, outcome_bind_ok query_outcome]
  rcases hfind : db.payments.find (·.externalReference == reference) with _ | payment
  · rfl
  simp only [Option.map_some]
  unfold settleIfOpen
  split
  · have hsettled : outcome w o ((settle reference).attempt >>= fun _ => pure ()) db =
        (.ok (), (outcome w o (settle reference) db).2) := by
      rw [Prog.bind_eq, outcome_bind_ok outcome_attempt]
      rfl
    rw [Prog.bind_eq, outcome_bind_ok hsettled]
    exact reading_leaves fun _ => by split <;> rfl
  · exact reading_leaves fun _ => by split <;> rfl

/-! ### Side by side -/

lemma settle_nothing (hnone : ∀ p, db.payments.find (·.externalReference == reference) = some p →
    SETTLEABLE.contains p.status = false) : (outcome w o (settle reference) db).2 = db := by
  unfold settle
  rw [Prog.bind_eq, outcome_bind_ok query_outcome]
  rcases hfind : db.payments.find (·.externalReference == reference) with _ | p
  · rfl
  · simp only [hnone p hfind, Bool.not_false, if_true]
    rfl

/-- What the webhook leaves of a closed payment. -/
lemma settle_closed (hunused : Unused w DRAWN (db, 0))
    (hfind : db.payments.find (·.externalReference == reference) = some payment)
    (hclosed : payment.status = .FAILED ∨ payment.status = .ABANDONED) :
    moneyOf db = moneyOf (outcome w o (settle reference) db).2 ↔ ∀ entries, ¬Due o db payment entries := by
  refine ⟨fun heq entries hdue => ?_, fun hnot => by rw [settle_outcome hfind hclosed hnot]⟩
  have hopen : SETTLEABLE.contains payment.status = true := by
    rcases hclosed with h | h <;> rw [h] <;> rfl
  obtain ⟨row, hrow, hid, hsuccess⟩ := settle_due hunused hfind hopen hdue
  have hmem : (row.id, row.status) ∈ db.payments.rows.map fun p => (p.id, p.status) := by
    rw [statuses_of_money heq]
    exact List.mem_map_of_mem hrow
  obtain ⟨p, hp, hpair⟩ := List.mem_map.mp hmem
  obtain ⟨hpid, hpstatus⟩ := Prod.mk.inj hpair
  obtain rfl := eq_of_payment_id hp (Table.mem_of_find hfind) (hpid.trans hid)
  rw [hpstatus, hsuccess] at hclosed
  rcases hclosed with h | h <;> cases h

lemma overlooked_iff (hfind : db.payments.find (·.externalReference == reference) = some payment) :
    Overlooked o db reference ↔
      (payment.status = .FAILED ∨ payment.status = .ABANDONED) ∧ ∃ entries, Due o db payment entries := by
  constructor
  · rintro ⟨p, entries, hp, hclosed, hdue⟩
    obtain rfl := Option.some.inj (hfind.symm.trans hp)
    exact ⟨hclosed, entries, hdue⟩
  · rintro ⟨hclosed, entries, hdue⟩
    exact ⟨payment, entries, hfind, hclosed, hdue⟩

/-- **The poll leaves what the webhook leaves**, from any state and for any answers, if and only if no payment
with a settlement due was `FAILED` or `ABANDONED`. -/
theorem poll_agrees_with_webhook {event : WebhookEvent} (hunused : Unused w DRAWN (db, 0))
    (hfind : db.webhookEvents.find (·.id == id) = some event) (htype : event.eventType = "charge.success")
    (hreference : payloadReference event.payload = some reference) (hopen : event.processingStatus ≠ .COMPLETED) :
    moneyOf (outcome w o (getPaymentStatus reference) db).2 = moneyOf (outcome w o (handle id) db).2 ↔
      ¬Overlooked o db reference := by
  rw [handle_outcome hfind htype hreference hopen, getPaymentStatus_outcome]
  rcases hpayment : db.payments.find (·.externalReference == reference) with _ | payment
  · rw [settle_nothing fun p hp => by rw [hpayment] at hp; cases hp]
    refine iff_of_true rfl ?_
    rintro ⟨p, entries, hp, -⟩
    rw [hpayment] at hp
    cases hp
  have honly : ∀ p, db.payments.find (·.externalReference == reference) = some p → p = payment := fun p hp =>
    Option.some.inj (hp.symm.trans hpayment)
  rw [overlooked_iff hpayment]
  rcases hstatus : payment.status with _ | _ | _ | _ | _ | _ | _
  case CREATED | PENDING => simp [hstatus]
  case FAILED | ABANDONED =>
    simp only [hstatus, reduceCtorEq, or_self, if_false, or_true, true_or, true_and, not_exists]
    exact settle_closed hunused hpayment (by simp [hstatus])
  all_goals
    rw [settle_nothing fun p hp => by rw [honly p hp, hstatus]; rfl]
    simp [hstatus]

/-! ### A charge that succeeds after it failed -/

def chargeSucceeded : WebhookEvent :=
  { id := uid 20, provider := "paystack", eventType := "charge.success", externalEventId := "paystack:charge.success:1"
    signature := "sig", payload := .obj [("data", .obj [("reference", .str "pay_1")])], receivedAt := 0
    processedAt := none, processingStatus := .PENDING }

/-- The payment with a status, and the event of a charge that succeeded. -/
def chargedDb (status : PaymentStatus) : Db :=
  { sampleDb with
    payments := ⟨[{ samplePayment with status }], sampleDb.payments.unique⟩
    webhookEvents := ⟨[chargeSucceeded], by decide⟩ }

lemma chargedDb_unused (status : PaymentStatus) : Unused (inputAt 1) DRAWN (chargedDb status, 0) :=
  ⟨by decide, fun _ _ _ _ ha => (by cases ha), fun _ _ _ _ hp => by cases hp⟩

theorem poll_agrees_with_webhook_sample :
    moneyOf (outcome (inputAt 1) agreeable (getPaymentStatus "pay_1") (chargedDb .PENDING)).2 =
      moneyOf (outcome (inputAt 1) agreeable (handle (uid 20)) (chargedDb .PENDING)).2 := by
  refine (poll_agrees_with_webhook (chargedDb_unused _) rfl rfl rfl (by decide)).mpr ?_
  rintro ⟨payment, entries, hfind, hclosed, -⟩
  obtain rfl := Option.some.inj hfind
  rcases hclosed with h | h <;> cases h

/-- The guest's card was declined, and then accepted: the webhook settles, and the poll does not. -/
theorem poll_takes_failed_for_closed :
    moneyOf (outcome (inputAt 1) agreeable (getPaymentStatus "pay_1") (chargedDb .FAILED)).2 ≠
      moneyOf (outcome (inputAt 1) agreeable (handle (uid 20)) (chargedDb .FAILED)).2 := by
  intro heq
  have hpolled : (outcome (inputAt 1) agreeable (getPaymentStatus "pay_1") (chargedDb .FAILED)).2.payments.rows.map
      (fun p => (p.id, p.status)) = [(uid 1, .FAILED)] := by decide +kernel
  have hsettled : (outcome (inputAt 1) agreeable (handle (uid 20)) (chargedDb .FAILED)).2.payments.rows.map
      (fun p => (p.id, p.status)) = [(uid 1, .SUCCESS)] := by decide +kernel
  have hsame := hpolled.symm.trans ((statuses_of_money heq).trans hsettled)
  cases hsame

end Splitcore.Webhooks
