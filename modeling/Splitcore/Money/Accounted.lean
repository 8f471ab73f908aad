import Splitcore.Money.Services

/-!
A payment and its books: `SUCCESS` goes with one settlement posting, under the rule of the
snapshot, and one payout for each obligation in it; any other status with none of either.
-/

namespace Splitcore.Money

open Relational Interleaving Ledger

/-! ### The books of one payment -/

def settlementsOf (db : Db) (id : Uuid) : List Posting :=
  db.postings.filter fun po => po.origin = .settlement ∧ po.transactionId = id

def settlementEntries (db : Db) (id : Uuid) : List LedgerEntry :=
  (settlementsOf db id).flatMap (·.entries)

def obligationsOf (db : Db) (id : Uuid) : List Obligation :=
  (db.payouts.rows.map obligation).filter (·.transactionId = id)

/-- The settlement entries of the payment are exactly those of its snapshot, and its payouts
are one for each payable credit among them. -/
def Posted (db : Db) (payment : PaymentTransaction) : Prop :=
  ∃ rule ∈ db.splitRules.rows, payment.splitRuleId = some rule.id ∧
    ∃ specs, computePaymentEntries (paymentForPosting payment) (splitForPosting rule) = .ok specs ∧
      List.Forall₂ (Writes db payment.id) specs (settlementEntries db payment.id) ∧
      List.Forall₂ (Owes db payment.id) (specs.filter isObligation) (obligationsOf db payment.id)

/-- The payment's status and its books agree. -/
structure Accounted (db : Db) (payment : PaymentTransaction) : Prop where
  mem : payment ∈ db.payments.rows
  unsettled : payment.status ≠ .SUCCESS →
    settlementsOf db payment.id = [] ∧ obligationsOf db payment.id = []
  settled : payment.status = .SUCCESS →
    (settlementsOf db payment.id).length = 1 ∧ Posted db payment

variable {db db' : Db} {payment payment' : PaymentTransaction}

lemma Accounted.length_le (h : Accounted db payment) :
    (settlementsOf db payment.id).length ≤ 1 := by
  by_cases hs : payment.status = .SUCCESS
  · exact (h.settled hs).1.le
  · simp [(h.unsettled hs).1]

/-- An unsettled payment has no entries, and a posting always has some. -/
lemma Accounted.iff_posted (h : Accounted db payment) :
    payment.status = .SUCCESS ↔ Posted db payment := by
  refine ⟨fun hs => (h.settled hs).2, fun ⟨rule, _, _, specs, hspecs, hw, _⟩ => ?_⟩
  by_contra hs
  rw [settlementEntries, (h.unsettled hs).1, List.flatMap_nil, List.forall₂_nil_right_iff] at hw
  exact (assertBalanced_ok.mp (computePaymentEntries_ok hspecs).1).1 hw

lemma posted_keeps (hk : Keeps db db') (hq : quoted payment' = quoted payment)
    (hs : settlementsOf db' payment.id = settlementsOf db payment.id)
    (ho : obligationsOf db' payment.id = obligationsOf db payment.id) (h : Posted db payment) :
    Posted db' payment' := by
  obtain ⟨rule, hrule, hsnap, specs, hspecs, hw, hob⟩ := h
  obtain ⟨rule', hrule', hterms⟩ := mem_map_of_prefix hk.splitRules hrule
  obtain ⟨hid, hsnap', hposting⟩ := of_quoted hq
  have hsplit : splitForPosting rule' = splitForPosting rule := congrArg Prod.snd hterms
  have hruleId : rule'.id = rule.id := congrArg Prod.fst hterms
  refine ⟨rule', hrule', by rw [hsnap', hsnap, hruleId], specs, by rw [hposting, hsplit, hspecs],
    ?_, ?_⟩
  · rw [settlementEntries, hid, hs]
    exact hw.imp fun _ _ h => h.mono hk.ledgerAccounts
  · rw [hid, ho]
    exact hob.imp fun _ _ h => h.mono hk.ledgerAccounts

/-- A payment whose status does not cross `SUCCESS` and whose books are left alone. -/
lemma accounted_keeps (hk : Keeps db db') (hmem : payment' ∈ db'.payments.rows)
    (hq : quoted payment' = quoted payment)
    (hstatus : payment'.status = .SUCCESS ↔ payment.status = .SUCCESS)
    (hs : settlementsOf db' payment.id = settlementsOf db payment.id)
    (ho : obligationsOf db' payment.id = obligationsOf db payment.id) (h : Accounted db payment) :
    Accounted db' payment' := by
  have hid := (of_quoted hq).1
  refine ⟨hmem, fun hne => ?_, fun heq => ?_⟩
  · rw [hid, hs, ho]
    exact h.unsettled (mt hstatus.mpr hne)
  · obtain ⟨hlen, hposted⟩ := h.settled (hstatus.mp heq)
    rw [hid, hs]
    exact ⟨hlen, posted_keeps hk hq hs ho hposted⟩

/-! ### Changes -/

lemma obligationsOf_update {t : Table Payout} {guard : Payout → Bool} {update : Payout → Payout}
    (hkeeps : ∀ p, obligation (update p) = obligation p) (ht : db.payouts.update guard update = some t)
    (h : db'.payouts = t) (id : Uuid) : obligationsOf db' id = obligationsOf db id := by
  rw [obligationsOf, h, Table.map_update hkeeps ht, obligationsOf]

lemma settlementsOf_append {po : Posting} (h : db'.postings = db.postings ++ [po]) (id : Uuid) :
    settlementsOf db' id = settlementsOf db id ++
      if po.origin = .settlement ∧ po.transactionId = id then [po] else [] := by
  rw [settlementsOf, h, List.filter_append, settlementsOf, List.filter_singleton]
  by_cases hpo : po.origin = .settlement ∧ po.transactionId = id <;> simp [hpo]

/-- The obligations after those of one payment were added. -/
lemma obligationsOf_settled (s : Settled db db') (id : Uuid) : obligationsOf db' id =
    obligationsOf db id ++ if s.payment.id = id then s.payouts.map obligation else [] := by
  have hrows : db'.payouts.rows = db.payouts.rows ++ s.payouts :=
    (congrArg (fun d : Db => d.payouts.rows) s.after).trans s.payouts_rows
  have htx : ∀ o ∈ s.payouts.map obligation, o.transactionId = s.payment.id := fun o ho => by
    obtain ⟨spec, -, hw⟩ := exists_of_forall₂ s.owed ho
    exact hw.1
  rw [obligationsOf, hrows, List.map_append, List.filter_append, obligationsOf]
  congr 1
  split
  · rename_i hid
    exact List.filter_eq_self.mpr fun o ho => by simp [htx o ho, hid]
  · rename_i hid
    exact List.filter_eq_nil_iff.mpr fun o ho => by simp [htx o ho, hid]

/-- The settled payment itself. -/
lemma settled_accounted (s : Settled db db') (h : Accounted db s.payment) :
    ∃ payment', quoted payment' = quoted s.payment ∧ Accounted db' payment' ∧
      payment'.status = .SUCCESS := by
  have hopen : s.payment.status ≠ .SUCCESS := fun hc => by
    have := s.open_
    rw [hc] at this; exact absurd this (by decide)
  obtain ⟨hno, hnone⟩ := h.unsettled hopen
  have hpayments := congrArg Db.payments s.after
  have hmem : ({ s.payment with status := .SUCCESS, updatedAt := s.now } : PaymentTransaction) ∈
      db'.payments.rows := by
    rw [hpayments, Table.rows_update s.claimed]
    refine List.mem_map.mpr ⟨s.payment, s.payment_mem, if_pos ?_⟩
    simp only [beq_self_eq_true, Bool.true_and]; exact s.open_
  have hpost := settlementsOf_append (congrArg Db.postings s.after) s.payment.id
  rw [hno, if_pos ⟨rfl, rfl⟩, List.nil_append] at hpost
  have hob := obligationsOf_settled s s.payment.id
  rw [hnone, if_pos rfl, List.nil_append] at hob
  refine ⟨{ s.payment with status := .SUCCESS, updatedAt := s.now }, rfl,
    ⟨hmem, fun hne => absurd rfl hne, fun _ => ⟨by rw [hpost]; rfl, ?_⟩⟩, rfl⟩
  have hrules := congrArg Db.splitRules s.after
  refine ⟨s.rule, by rw [hrules]; exact s.rule_mem, s.snapshot, s.specs, s.computed, ?_, ?_⟩
  · rw [settlementEntries, hpost, List.flatMap_singleton]
    exact s.written
  · rw [hob]; exact s.owed

/-- **Every change keeps every payment's books in agreement with its status**, and a payment
that is `SUCCESS` stays so. -/
theorem change_accounted (hc : Change db db') (h : Accounted db payment) :
    ∃ payment', quoted payment' = quoted payment ∧ Accounted db' payment' ∧
      (payment.status = .SUCCESS → payment'.status = .SUCCESS) := by
  have hk := hc.keeps
  cases hc with
  | same => exact ⟨payment, rfl, h, id⟩
  | payments guard update t ht hkeeps hstatus hstatus' =>
    -- a row the update finds is not `SUCCESS` before or after
    have hrow : (if guard payment then update payment else payment) ∈ t.rows := by
      rw [Table.rows_update ht]; exact List.mem_map_of_mem h.mem
    by_cases hg : guard payment = true
    · rw [if_pos hg] at hrow
      refine ⟨_, hkeeps payment, accounted_keeps hk hrow (hkeeps _) ?_ rfl rfl h,
        fun hs => absurd hs (hstatus payment h.mem hg)⟩
      exact iff_of_false (hstatus' payment) (hstatus payment h.mem hg)
    · rw [if_neg hg] at hrow
      exact ⟨payment, rfl, accounted_keeps hk hrow rfl Iff.rfl rfl rfl h, id⟩
  | created p t ht =>
    have hrow : payment ∈ t.rows := by
      rw [Table.rows_insert ht]; exact List.mem_append_left _ h.mem
    exact ⟨payment, rfl, accounted_keeps hk hrow rfl Iff.rfl rfl rfl h, id⟩
  | payouts guard update t ht hkeeps =>
    exact ⟨payment, rfl, accounted_keeps hk h.mem rfl Iff.rfl rfl
      (obligationsOf_update hkeeps ht rfl _) h, id⟩
  | settled s =>
    by_cases hid : s.payment.id = payment.id
    · obtain rfl : s.payment = payment := Table.eq_of_key (k := .id payment.id) s.payment_mem h.mem
        (by simp [Indexed.keys, hid]) (by simp [Indexed.keys])
      obtain ⟨payment', hq, hacc, hs⟩ := settled_accounted s h
      exact ⟨payment', hq, hacc, fun _ => hs⟩
    · have hrow : payment ∈ db'.payments.rows := by
        rw [congrArg Db.payments s.after, Table.rows_update s.claimed]
        refine List.mem_map.mpr ⟨payment, h.mem, if_neg ?_⟩
        simp [Ne.symm hid]
      have hpost := settlementsOf_append (congrArg Db.postings s.after) payment.id
      rw [if_neg (fun hc => hid hc.2), List.append_nil] at hpost
      have hob := obligationsOf_settled s payment.id
      rw [if_neg hid, List.append_nil] at hob
      exact ⟨payment, rfl, accounted_keeps hk hrow rfl Iff.rfl hpost hob h, id⟩
  | moved back m =>
    have hrow : payment ∈ db'.payments.rows := by
      rw [congrArg Db.payments m.after]; exact h.mem
    have hpost := settlementsOf_append (congrArg Db.postings m.after) payment.id
    have horigin : movedOrigin back ≠ .settlement := by cases back <;> decide
    rw [if_neg (fun hc => horigin hc.1), List.append_nil] at hpost
    exact ⟨payment, rfl, accounted_keeps hk hrow rfl Iff.rfl hpost
      (obligationsOf_update m.keeps m.updated (congrArg Db.payouts m.after) _) h, id⟩

lemma elsewhere_accounted {v : Db} (he : elsewhere v db = some db') (h : Accounted db payment) :
    Accounted db' payment := by
  obtain ⟨hk, -, hpost, hpay⟩ := elsewhere_keeps he
  have hrow : payment ∈ db'.payments.rows := by
    unfold elsewhere at he
    split at he
    · rename_i hpre
      cases he; exact hpre.1.subset h.mem
    · cases he
  exact accounted_keeps hk hrow rfl Iff.rfl (by rw [settlementsOf, hpost, settlementsOf])
    (by rw [obligationsOf, hpay, obligationsOf]) h

/-! ### Runs -/

/-- The payment as it now is. -/
def AccountedAs (payment : PaymentTransaction) (db : Db) : Prop :=
  ∃ payment', quoted payment' = quoted payment ∧ Accounted db payment' ∧
    (payment.status = .SUCCESS → payment'.status = .SUCCESS)

lemma accounted_reach {p p' : Pool App Operation Unit} (hp : InOrder p)
    (h : Reach services anyEvent p p') (hacc : Accounted p.store payment) :
    InOrder p' ∧ AccountedAs payment p'.store := by
  refine services_keep (fun db db' hc => ?_) (fun v db db' he => ?_) hp h ⟨payment, rfl, hacc, id⟩
  · rintro ⟨x, hq, hx, hs⟩
    obtain ⟨y, hyq, hy, hys⟩ := change_accounted hc hx
    exact ⟨y, hyq.trans hq, hy, fun h => hys (hs h)⟩
  · rintro ⟨x, hq, hx, hs⟩
    exact ⟨x, hq, elsewhere_accounted he hx, hs⟩

/-- **Settlement happens exactly once.** A payment starts unsettled, with nothing posted and
nothing owed for it. Wherever any calls lead from there, at most one settlement posting was
made; the payment is `SUCCESS` exactly when its entries and its payouts are those of its
snapshot; and once it is `SUCCESS` it is so in every later state. -/
theorem settled_exactly_once {p₀ p : Pool App Operation Unit} (hruns : p₀.runs = [])
    (hmem : payment ∈ p₀.store.payments.rows) (hstatus : payment.status ≠ .SUCCESS)
    (hpost : settlementsOf p₀.store payment.id = []) (hpay : obligationsOf p₀.store payment.id = [])
    (h : Reach services anyEvent p₀ p) :
    (settlementsOf p.store payment.id).length ≤ 1 ∧
    ∃ current ∈ p.store.payments.rows, quoted current = quoted payment ∧
      (current.status = .SUCCESS ↔ Posted p.store current) ∧
      ∀ p', Reach services anyEvent p p' → current.status = .SUCCESS →
        ∃ later ∈ p'.store.payments.rows, quoted later = quoted payment ∧
          later.status = .SUCCESS := by
  obtain ⟨hp, current, hq, hacc, -⟩ := accounted_reach (steady_start hruns) h
    ⟨hmem, fun _ => ⟨hpost, hpay⟩, fun hs => absurd hs hstatus⟩
  have hid := (of_quoted hq).1
  refine ⟨hid ▸ hacc.length_le, current, hacc.mem, hq, hacc.iff_posted, fun p' hreach hs => ?_⟩
  obtain ⟨-, later, hlq, hlater, hlater'⟩ := accounted_reach hp hreach hacc
  exact ⟨later, hlater.mem, hlq.trans hq, hlater' hs⟩

theorem settled_exactly_once_sample :
    ∃ p, run services ⟨sampleDb, (), []⟩ settledAndPaid = some p ∧
      (settlementsOf p.store samplePayment.id).length ≤ 1 ∧
      ∃ current ∈ p.store.payments.rows, quoted current = quoted samplePayment ∧
        (current.status = .SUCCESS ↔ Posted p.store current) ∧
        ∀ p', Reach services anyEvent p p' → current.status = .SUCCESS →
          ∃ later ∈ p'.store.payments.rows, quoted later = quoted samplePayment ∧
            later.status = .SUCCESS := by
  obtain ⟨p, hp⟩ := Option.isSome_iff_exists.mp
    (by decide +kernel : (run services ⟨sampleDb, (), []⟩ settledAndPaid).isSome = true)
  exact ⟨p, hp, settled_exactly_once rfl (List.mem_singleton.mpr rfl) (by decide) rfl rfl
    (reach_of_run (along_any _) hp)⟩

end Splitcore.Money
