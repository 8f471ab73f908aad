import Mathlib.Data.List.Infix
import Splitcore.Money.Payouts

/-!
Everything the settlement and payout services ever do to the database.

The columns that say what is owed never change (`Keeps`), and each statement makes one of a
few changes (`Change`). What a run read before it paused is still there when it writes, so
each statement's change can be stated without the run that makes it. Every invariant of the
books is derived from `Change` alone.
-/

namespace Splitcore.Money

open Relational Interleaving Ledger

/-! ### What is never rewritten -/

/-- What a payment was initialized with. -/
def quoted (p : PaymentTransaction) : PaymentTransaction :=
  { p with status := .CREATED, updatedAt := 0 }

lemma of_quoted {p q : PaymentTransaction} (h : quoted p = quoted q) : p.id = q.id ∧
    p.splitRuleId = q.splitRuleId ∧ paymentForPosting p = paymentForPosting q := by
  simp only [quoted, PaymentTransaction.mk.injEq] at h
  simp [paymentForPosting, h]

structure Obligation where
  id : Uuid
  ledgerAccountId : Uuid
  transactionId : Uuid
  amountKobo : ℤ
deriving DecidableEq

def obligation (p : Payout) : Obligation := ⟨p.id, p.ledgerAccountId, p.transactionId, p.amountKobo⟩

/-- The terms of a split rule. -/
def terms (r : SplitRule) : Uuid × SplitForPosting := (r.id, splitForPosting r)

/-- Payments, terms, accounts and obligations are added, never rewritten or removed. -/
structure Keeps (db db' : Db) : Prop where
  payments : db.payments.rows.map quoted <+: db'.payments.rows.map quoted
  splitRules : db.splitRules.rows.map terms <+: db'.splitRules.rows.map terms
  ledgerAccounts : db.ledgerAccounts.rows <+: db'.ledgerAccounts.rows
  payouts : db.payouts.rows.map obligation <+: db'.payouts.rows.map obligation

lemma Keeps.refl (db : Db) : Keeps db db :=
  ⟨List.prefix_rfl, List.prefix_rfl, List.prefix_rfl, List.prefix_rfl⟩

lemma Keeps.trans {db₁ db₂ db₃ : Db} (h : Keeps db₁ db₂) (h' : Keeps db₂ db₃) : Keeps db₁ db₃ :=
  ⟨h.1.trans h'.1, h.2.trans h'.2, h.3.trans h'.3, h.4.trans h'.4⟩

lemma mem_map_of_prefix {α β : Type} {f : α → β} {l l' : List α} (h : l.map f <+: l'.map f) {a : α}
    (ha : a ∈ l) : ∃ b ∈ l', f b = f a :=
  List.mem_map.mp (h.subset (List.mem_map_of_mem ha))

/-! ### The changes -/

lemma exists_of_forall₂ {α β : Type} {R : α → β → Prop} {l : List α} {l' : List β}
    (h : List.Forall₂ R l l') {b : β} (hb : b ∈ l') : ∃ a ∈ l, R a b := by
  induction h with
  | nil => cases hb
  | @cons a c l l' hac _ ih =>
    rcases List.mem_cons.mp hb with rfl | hb
    · exact ⟨a, by simp, hac⟩
    · obtain ⟨x, hx, hr⟩ := ih hb
      exact ⟨x, List.mem_cons_of_mem _ hx, hr⟩

/-- The obligation of a line: on its account, for its amount. -/
def Owes (db : Db) (transactionId : Uuid) (spec : LedgerEntrySpec) (o : Obligation) : Prop :=
  o.transactionId = transactionId ∧ o.amountKobo = spec.amountKobo ∧
    ⟨o.ledgerAccountId, spec.accountType, spec.ownerId⟩ ∈ db.ledgerAccounts.rows

/-- A payout nobody has tried to make yet. -/
structure Untried (p : Payout) : Prop where
  status : p.status = .QUEUED
  attempts : p.attempts = 0
  transferReference : p.transferReference = none
  positive : 0 < p.amountKobo

/-- A payment is settled: claimed, posted under its rule, and owed. -/
structure Settled (db db' : Db) where
  payment : PaymentTransaction
  rule : SplitRule
  specs : List LedgerEntrySpec
  entries : List LedgerEntry
  payouts : List Payout
  payment_mem : payment ∈ db.payments.rows
  open_ : SETTLEABLE.contains payment.status = true
  rule_mem : rule ∈ db.splitRules.rows
  snapshot : payment.splitRuleId = some rule.id
  computed : computePaymentEntries (paymentForPosting payment) (splitForPosting rule) = .ok specs
  now : Time
  payments' : Table PaymentTransaction
  claimed : db.payments.update (fun p => p.id == payment.id && SETTLEABLE.contains p.status)
    (fun p => { p with status := .SUCCESS, updatedAt := now }) = some payments'
  accounts' : Table LedgerAccount
  accounts_prefix : db.ledgerAccounts.rows <+: accounts'.rows
  payouts' : Table Payout
  payouts_rows : payouts'.rows = db.payouts.rows ++ payouts
  after : db' = { db with
    payments := payments', ledgerAccounts := accounts', payouts := payouts'
    postings := db.postings ++ [⟨.settlement, payment.id, entries⟩] }
  written : List.Forall₂ (Writes db' payment.id) specs entries
  owed : List.Forall₂ (Owes db' payment.id) (specs.filter isObligation) (payouts.map obligation)
  untried : ∀ p ∈ payouts, Untried p

/-- The ledger entries of a delivery, or of a return. -/
def movedEntries (back : Bool) (payout : PayoutForPosting) : List LedgerEntrySpec :=
  if back then (payoutEntries payout).map LedgerEntrySpec.reversed else payoutEntries payout

def movedOrigin (back : Bool) : Origin := if back then .reversal else .payout

/-- A payout is delivered, or comes back: its status crosses `SUCCESS` and its posting is
written. -/
structure Moved (back : Bool) (db db' : Db) where
  payout : Payout
  account : LedgerAccount
  entries : List LedgerEntry
  payout_mem : payout ∈ db.payouts.rows
  account_mem : account ∈ db.ledgerAccounts.rows
  account_id : account.id = payout.ledgerAccountId
  payable : isPayable account.type = true
  guard : Payout → Bool
  update : Payout → Payout
  named : Table.Names guard (.id payout.id)
  guarded : guard payout = true
  status : payout.status = .SUCCESS ↔ back = true
  status' : (update payout).status = .SUCCESS ↔ back = false
  keeps : ∀ p, obligation (update p) = obligation p
  payouts' : Table Payout
  updated : db.payouts.update guard update = some payouts'
  accounts' : Table LedgerAccount
  accounts_prefix : db.ledgerAccounts.rows <+: accounts'.rows
  after : db' = { db with
    ledgerAccounts := accounts', payouts := payouts'
    postings := db.postings ++ [⟨movedOrigin back, payout.transactionId, entries⟩] }
  written : List.Forall₂ (Writes db' payout.transactionId)
    (movedEntries back (payoutForPosting payout account)) entries

/-- What a statement of the settlement or the payout service does. -/
inductive Change (db : Db) : Db → Prop
  | same : Change db db
  /-- The status of payments that are not `SUCCESS` and do not become it. -/
  | payments (guard : PaymentTransaction → Bool) (update : PaymentTransaction → PaymentTransaction)
      (t : Table PaymentTransaction) (ht : db.payments.update guard update = some t)
      (hkeeps : ∀ p, quoted (update p) = quoted p)
      (hstatus : ∀ p ∈ db.payments.rows, guard p = true → p.status ≠ .SUCCESS)
      (hstatus' : ∀ p, (update p).status ≠ .SUCCESS) :
      Change db { db with payments := t }
  | created (p : PaymentTransaction) (t : Table PaymentTransaction)
      (ht : db.payments.insert p = some t) (hstatus : p.status ≠ .SUCCESS) :
      Change db { db with payments := t }
  /-- Columns of payouts that say nothing about what is owed. -/
  | payouts (guard : Payout → Bool) (update : Payout → Payout) (t : Table Payout)
      (ht : db.payouts.update guard update = some t)
      (hkeeps : ∀ p, obligation (update p) = obligation p)
      (hstatus : ∀ p, guard p = true → ((update p).status = .SUCCESS ↔ p.status = .SUCCESS)) :
      Change db { db with payouts := t }
  | settled {db' : Db} (s : Settled db db') : Change db db'
  | moved {db' : Db} (back : Bool) (m : Moved back db db') : Change db db'

lemma Change.keeps {db db' : Db} (h : Change db db') : Keeps db db' := by
  cases h with
  | same => exact .refl db
  | payments guard update t ht hkeeps =>
    refine { Keeps.refl db with payments := ?_ }
    rw [Table.map_update hkeeps ht]
  | created p t ht =>
    refine { Keeps.refl db with payments := ?_ }
    rw [Table.rows_insert ht, List.map_append]
    exact List.prefix_append _ _
  | payouts guard update t ht hkeeps =>
    refine { Keeps.refl db with payouts := ?_ }
    rw [Table.map_update hkeeps ht]
  | settled s =>
    rw [s.after]
    refine ⟨?_, List.prefix_rfl, s.accounts_prefix, ?_⟩
    · have hquoted : ∀ p, quoted { p with status := .SUCCESS, updatedAt := s.now } = quoted p :=
        fun _ => rfl
      rw [Table.map_update hquoted s.claimed]
    · rw [s.payouts_rows, List.map_append]
      exact List.prefix_append _ _
  | moved back m =>
    rw [m.after]
    refine ⟨List.prefix_rfl, List.prefix_rfl, m.accounts_prefix, ?_⟩
    rw [Table.map_update m.keeps m.updated]

end Splitcore.Money
