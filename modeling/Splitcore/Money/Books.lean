import Splitcore.Bookkeeping.Liabilities
import Splitcore.Money.Guarantees

/-!
The ledger as a book of liabilities: the payouts are the liabilities, the entries on payable
accounts are the lines. Every change the services make is a step of the book.
-/

namespace Splitcore.Money

open Relational Ledger Bookkeeping

/-! ### The book of a database -/

def liability (p : Payout) : Liability Uuid Uuid :=
  ⟨p.ledgerAccountId, p.transactionId, p.amountKobo, p.status == .SUCCESS⟩

/-- Debits count, credits count against. -/
def signedDebit (e : LedgerEntry) : ℤ :=
  if e.direction = .DEBIT then e.amountKobo else -e.amountKobo

def entryLine (origin : Origin) (e : LedgerEntry) : Line Uuid Uuid :=
  ⟨e.accountId, e.transactionId, origin == .settlement, signedDebit e⟩

def isPayableId (t : Table LedgerAccount) (id : Uuid) : Bool :=
  t.rows.any fun a => a.id == id && isPayable a.type

/-- The lines of a posting: its entries on payable accounts. -/
def postingLines (t : Table LedgerAccount) (po : Posting) : List (Line Uuid Uuid) :=
  (po.entries.filter fun e => isPayableId t e.accountId).map (entryLine po.origin)

def book (db : Db) : Book Uuid Uuid :=
  ⟨db.payouts.rows.map liability, db.postings.flatMap (postingLines db.ledgerAccounts)⟩

/-- Foreign keys, and payouts on payable accounts only. -/
structure Consistent (db : Db) : Prop where
  entries : ∀ po ∈ db.postings, ∀ e ∈ po.entries, ∃ a ∈ db.ledgerAccounts.rows, a.id = e.accountId
  payouts : ∀ p ∈ db.payouts.rows, ∃ a ∈ db.ledgerAccounts.rows,
    a.id = p.ledgerAccountId ∧ isPayable a.type = true

/-! ### Accounts -/

variable {db db' : Db} {t t' : Table LedgerAccount}

lemma eq_of_account_id {a a' : LedgerAccount} (ha : a ∈ t.rows) (ha' : a' ∈ t.rows)
    (hid : a.id = a'.id) : a = a' :=
  Table.eq_of_key (k := .id a.id) ha ha' (by simp [Indexed.keys]) (by simp [Indexed.keys, hid])

lemma isPayableId_of_mem {a : LedgerAccount} (ha : a ∈ t.rows) :
    isPayableId t a.id = isPayable a.type := by
  rw [Bool.eq_iff_iff, isPayableId, List.any_eq_true]
  constructor
  · rintro ⟨a', ha', h⟩
    simp only [Bool.and_eq_true, beq_iff_eq] at h
    rw [← eq_of_account_id ha' ha h.1]; exact h.2
  · exact fun h => ⟨a, ha, by simp [h]⟩

/-- Accounts that are added change nothing about those that are there. -/
lemma isPayableId_prefix (hpre : t.rows <+: t'.rows) {id : Uuid} (h : ∃ a ∈ t.rows, a.id = id) :
    isPayableId t' id = isPayableId t id := by
  obtain ⟨a, ha, rfl⟩ := h
  rw [isPayableId_of_mem ha, isPayableId_of_mem (hpre.subset ha)]

lemma postingLines_prefix (hpre : t.rows <+: t'.rows) {po : Posting}
    (h : ∀ e ∈ po.entries, ∃ a ∈ t.rows, a.id = e.accountId) :
    postingLines t' po = postingLines t po := by
  unfold postingLines
  rw [List.filter_congr fun e he => isPayableId_prefix hpre (h e he)]

/-- The lines so far, when accounts and one posting are added. -/
lemma lines_append (hc : Consistent db) (hpre : db.ledgerAccounts.rows <+: t'.rows) (po : Posting) :
    (db.postings ++ [po]).flatMap (postingLines t') =
      db.postings.flatMap (postingLines db.ledgerAccounts) ++ postingLines t' po := by
  rw [List.flatMap_append, List.flatMap_singleton]
  congr 1
  unfold List.flatMap
  rw [List.map_congr_left fun po hpo => postingLines_prefix hpre (hc.entries po hpo)]

/-! ### Settlement -/

lemma isPayableId_of_writes {id : Uuid} {spec : LedgerEntrySpec} {e : LedgerEntry}
    (h : Writes db id spec e) : isPayableId db.ledgerAccounts e.accountId = isPayable spec.accountType :=
  isPayableId_of_mem h.2.2.2

/-- The payable lines of a settlement are the credits of its payouts. -/
lemma settlement_lines {id : Uuid} {specs : List LedgerEntrySpec} {es : List LedgerEntry}
    {ps : List Payout} (hw : List.Forall₂ (Writes db id) specs es)
    (ho : List.Forall₂ (Owes db id) (specs.filter isObligation) (ps.map obligation))
    (hcredit : ∀ spec ∈ specs, isPayable spec.accountType = true → spec.direction = .CREDIT) :
    postingLines db.ledgerAccounts ⟨.settlement, id, es⟩ =
      (ps.map liability).map Liability.credit := by
  induction hw generalizing ps with
  | nil =>
    rw [List.filter_nil, List.forall₂_nil_left_iff, List.map_eq_nil_iff] at ho
    subst ho; rfl
  | @cons spec e specs es hse _ ih =>
    have ih' := fun {qs : List Payout} (ho : List.Forall₂ (Owes db id) (specs.filter isObligation)
        (qs.map obligation)) => ih ho fun x hx => hcredit x (List.mem_cons_of_mem _ hx)
    have hpay := isPayableId_of_writes hse
    simp only [postingLines] at ih' ⊢
    by_cases hp : isPayable spec.accountType = true
    · have hdir := hcredit spec (by simp) hp
      rw [List.filter_cons_of_pos (by simp [isObligation, hdir, hp])] at ho
      obtain ⟨o, os, howe, hrest, hos⟩ := List.forall₂_cons_left_iff.mp ho
      obtain ⟨p, ps, rfl, rfl, rfl⟩ := List.map_eq_cons_iff.mp hos
      rw [List.filter_cons_of_pos (by rw [hpay, hp]), List.map_cons, ih' hrest]
      have hacc := account_unique hse.2.2.2 howe.2.2
      have htx : p.transactionId = id := howe.1
      have hamount : p.amountKobo = spec.amountKobo := howe.2.1
      simp only [List.map_cons, List.cons.injEq, and_true]
      simp [entryLine, liability, Liability.credit, signedDebit, hse.2.1, hdir, hse.1, htx, hacc,
        hamount, hse.2.2.1, obligation]
    · rw [List.filter_cons_of_neg (by simp [isObligation, hp])] at ho
      rw [List.filter_cons_of_neg (by rw [hpay]; exact hp)]
      exact ih' ho

lemma settled_step (hc : Consistent db) (s : Settled db db') : Book.Step (book db) (book db') := by
  obtain ⟨hb, hspecs⟩ := computePaymentEntries_ok s.computed
  have hpost := (assertBalanced_ok.mp hb).2.1
  have hlines := settlement_lines s.written s.owed fun spec hm hp => by
    rw [hspecs] at hm; exact (mem_paymentEntries hm hp).1
  have hbook : book db' = (book db).incur (s.payouts.map liability) := by
    have hacc : db'.ledgerAccounts = s.accounts' := congrArg Db.ledgerAccounts s.after
    rw [hacc] at hlines
    refine (congrArg book s.after).trans ?_
    simp only [book, Book.incur, s.payouts_rows, List.map_append]
    rw [lines_append hc s.accounts_prefix, hlines]
  rw [hbook]
  refine .incur _ (fun l hl => ?_) ?_
  · obtain ⟨p, hp, rfl⟩ := List.mem_map.mp hl
    obtain ⟨spec, hspec, howe⟩ := exists_of_forall₂ s.owed (List.mem_map_of_mem hp)
    have hpos := (hpost spec (List.mem_of_mem_filter hspec)).2
    rw [← howe.2.1] at hpos
    exact ⟨by simp [liability, (s.untried p hp).status], le_of_lt hpos⟩
  · -- one payout for an account and a payment: the unique index
    have hpairs : ((s.payouts'.rows.map liability).map Liability.key).Nodup := by
      rw [List.map_map]
      refine s.payouts'.nodup_rows.map_on fun p hp q hq hk => ?_
      refine Table.eq_of_key (k := .pair p.ledgerAccountId p.transactionId) hp hq ?_ ?_
      · simp [Indexed.keys]
      · simp only [Function.comp, Liability.key, liability, Prod.mk.injEq] at hk
        simp [Indexed.keys, hk.1, hk.2]
    rwa [s.payouts_rows, List.map_append] at hpairs

/-! ### Payouts -/

/-- A guard that names a row and holds of it picks out this row. -/
lemma guard_iff {t : Table Payout} {payout : Payout} {guard : Payout → Bool}
    (hmem : payout ∈ t.rows) (hnamed : Table.Names guard (.id payout.id))
    (hguard : guard payout = true) {p : Payout} (hp : p ∈ t.rows) :
    guard p = true ↔ (liability p).key = (liability payout).key := by
  constructor
  · intro h
    rw [hnamed.eq hmem hguard hp h]
  · intro h
    simp only [Liability.key, liability, Prod.mk.injEq] at h
    have : p = payout :=
      Table.eq_of_key (k := .pair p.ledgerAccountId p.transactionId) hp hmem
        (by simp [Indexed.keys]) (by simp [Indexed.keys, h.1, h.2])
    rw [this]; exact hguard

lemma liability_keeps {p q : Payout} (h : obligation p = obligation q)
    (hs : p.status = .SUCCESS ↔ q.status = .SUCCESS) : liability p = liability q := by
  simp only [obligation, Obligation.mk.injEq] at h
  simp [liability, h.2.1, h.2.2.1, h.2.2.2, beq_eq_beq, hs]

/-- The lines of a delivery or a return: one, on the payable account. -/
lemma moved_lines (back : Bool) {payout : Payout} {account : LedgerAccount}
    {es : List LedgerEntry} (ha : account ∈ t.rows) (hid : account.id = payout.ledgerAccountId)
    (hpay : isPayable account.type = true) (hstatus : payout.status = .SUCCESS ↔ back = true)
    (hdb : db.ledgerAccounts = t) (hw : List.Forall₂ (Writes db payout.transactionId)
      (movedEntries back (payoutForPosting payout account)) es) :
    postingLines t ⟨movedOrigin back, payout.transactionId, es⟩ = [(liability payout).move] := by
  have hentries : movedEntries back (payoutForPosting payout account) =
      [⟨account.type, account.ownerId, if back then .CREDIT else .DEBIT, payout.amountKobo⟩,
        ⟨.PROCESSOR_CLEARING, none, if back then .DEBIT else .CREDIT, payout.amountKobo⟩] := by
    cases back <;> rfl
  rw [hentries] at hw
  obtain ⟨e, es₁, hwe, hw₁, rfl⟩ := List.forall₂_cons_left_iff.mp hw
  obtain ⟨c, es₂, hwc, hw₂, rfl⟩ := List.forall₂_cons_left_iff.mp hw₁
  obtain rfl := List.forall₂_nil_left_iff.mp hw₂
  have he : isPayableId t e.accountId = true := by
    rw [← hdb, isPayableId_of_writes hwe]; exact hpay
  have hc : isPayableId t c.accountId = false := by
    rw [← hdb, isPayableId_of_writes hwc]; rfl
  have hacc : e.accountId = payout.ledgerAccountId := by
    rw [← hid]
    have hmem : ⟨e.accountId, account.type, account.ownerId⟩ ∈ t.rows := by
      rw [← hdb]; exact hwe.2.2.2
    exact account_unique hmem ha
  have hdisc : (payout.status == .SUCCESS) = back := by
    rw [Bool.eq_iff_iff, beq_iff_eq]; exact hstatus
  have hfilter : [e, c].filter (fun e => isPayableId t e.accountId) = [e] := by simp [he, hc]
  simp only [postingLines, hfilter]
  cases back <;> simp [entryLine, liability, Liability.move, hacc, hwe.1, signedDebit, hwe.2.1,
    hwe.2.2.1, hdisc, movedOrigin]

lemma moved_step (hc : Consistent db) {back : Bool} (m : Moved back db db') :
    Book.Step (book db) (book db') := by
  have hacc : db'.ledgerAccounts = m.accounts' := congrArg Db.ledgerAccounts m.after
  have hlines := moved_lines back (m.accounts_prefix.subset m.account_mem) m.account_id m.payable
    m.status hacc m.written
  have hbook : book db' = (book db).turn (liability m.payout) := by
    refine (congrArg book m.after).trans ?_
    simp only [book, Book.turn]
    rw [lines_append hc m.accounts_prefix, hlines, Table.rows_update m.updated, List.map_map,
      List.map_map]
    congr 1
    refine List.map_congr_left fun p hp => ?_
    simp only [Function.comp]
    by_cases hg : m.guard p = true
    · rw [if_pos hg, if_pos ((guard_iff m.payout_mem m.named m.guarded hp).mp hg)]
      have hpayout : p = m.payout := m.named.eq m.payout_mem m.guarded hp hg
      subst hpayout
      have hk := m.keeps m.payout
      simp only [obligation, Obligation.mk.injEq] at hk
      have h1 : ((m.update m.payout).status == .SUCCESS) = !back := by
        rw [Bool.eq_iff_iff, beq_iff_eq, m.status']; simp
      have h2 : (m.payout.status == .SUCCESS) = back := by
        rw [Bool.eq_iff_iff, beq_iff_eq]; exact m.status
      simp [liability, Liability.turned, hk, h1, h2]
    · rw [if_neg hg, if_neg (fun h => hg ((guard_iff m.payout_mem m.named m.guarded hp).mpr h))]
  rw [hbook]
  exact .turn _ (List.mem_map_of_mem m.payout_mem)

/-- **The services keep a book**: every change they make is a step of it, or no step. -/
theorem change_step (hc : Consistent db) (h : Change db db') : Book.Step (book db) (book db') := by
  cases h with
  | same => exact .stay
  | payments => exact .stay
  | created => exact .stay
  | payouts guard update t ht hkeeps hstatus =>
    have : book { db with payouts := t } = book db := by
      simp only [book, Table.rows_update ht, List.map_map, Book.mk.injEq, and_true]
      refine List.map_congr_left fun p _ => ?_
      simp only [Function.comp]
      split
      · rename_i hg
        exact liability_keeps (hkeeps p) (hstatus p hg)
      · rfl
    rw [this]; exact .stay
  | settled s => exact settled_step hc s
  | moved back m => exact moved_step hc m

end Splitcore.Money
