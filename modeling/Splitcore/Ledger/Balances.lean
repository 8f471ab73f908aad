import Splitcore.Bookkeeping.Liabilities
import Splitcore.Ledger.Repository

/-!
What the ledger is asked for: sums over entries, grouped by the database.
-/

namespace Splitcore.Ledger

open Relational Bookkeeping

/-- `FROM ledger_entries e JOIN ledger_accounts a ON a.id = e.account_id WHERE ..` -/
def joined (cond : LedgerAccount → Bool) (db : Db) : List LedgerEntry :=
  db.ledgerEntries.flatMap fun e =>
    (db.ledgerAccounts.rows.filter fun a => a.id == e.accountId && cond a).map fun _ => e

/-- `SELECT direction, SUM(amount_kobo) .. GROUP BY direction`: a row for each direction there is, in an
order that is the database's. -/
def totals (creditsFirst : Bool) (es : List LedgerEntry) : List (LedgerDirection × ℤ) :=
  ((if creditsFirst then [LedgerDirection.CREDIT, .DEBIT] else [.DEBIT, .CREDIT]).filter fun d =>
    es.any (·.direction == d)).map fun d => (d, ((es.filter (·.direction == d)).map (·.amountKobo)).sum)

def getBalance (creditsFirst : Bool) (type : LedgerAccountType) (ownerId : Option Uuid) (db : Db) : ℤ :=
  balanceOf type (totals creditsFirst (joined (isAccount type ownerId) db))

structure TrialBalance where
  totalDebitsKobo : ℤ
  totalCreditsKobo : ℤ

/-- `COALESCE(SUM(CASE WHEN direction = d THEN amount_kobo END), 0)`. -/
def total (d : LedgerDirection) (es : List LedgerEntry) : ℤ := sumOf (·.direction == d) (·.amountKobo) es

def getTrialBalance (db : Db) : TrialBalance :=
  ⟨total .DEBIT db.ledgerEntries, total .CREDIT db.ledgerEntries⟩

/-! ### Grouped or entry by entry -/

variable {db : Db} {type : LedgerAccountType} {es : List LedgerEntry}

/-- What `balanceOf` is given of an entry. -/
def toBalance (e : LedgerEntry) : LedgerDirection × ℤ := (e.direction, e.amountKobo)

/-- An account that meets the condition has the entry. -/
def isOn (t : Table LedgerAccount) (cond : LedgerAccount → Bool) (e : LedgerEntry) : Bool :=
  t.rows.any fun a => a.id == e.accountId && cond a

/-- The sign of a debit in the account's normal sense. -/
def debitSign (type : LedgerAccountType) : ℤ := if type = .PROCESSOR_CLEARING then 1 else -1

lemma balanceOf_eq (type : LedgerAccountType) (es : List (LedgerDirection × ℤ)) :
    balanceOf type es = debitSign type * (es.map fun e => if e.1 = .DEBIT then e.2 else -e.2).sum := by
  have hfold : ∀ x : ℤ, es.foldl (fun sum e =>
      sum + (if e.1 = .DEBIT then debitSign type else -debitSign type) * e.2) x =
        x + debitSign type * (es.map fun e => if e.1 = .DEBIT then e.2 else -e.2).sum := by
    induction es with
    | nil => simp
    | cons e es ih =>
      intro x
      rw [List.foldl_cons, ih, List.map_cons, List.sum_cons]
      split <;> ring
  have := hfold 0
  rw [zero_add] at this
  exact this

lemma sum_toBalance (es : List LedgerEntry) : ((es.map toBalance).map fun e => if e.1 = .DEBIT then e.2 else -e.2).sum =
    total .DEBIT es - total .CREDIT es := by
  induction es with
  | nil => rfl
  | cons e es ih =>
    simp only [List.map_cons, List.sum_cons, ih, total, sumOf_cons]
    rcases hd : e.direction <;> simp [toBalance, hd] <;> ring

/-- **Grouping changes nothing**: a balance of grouped sums is that of the entries. -/
theorem balanceOf_totals (creditsFirst : Bool) :
    balanceOf type (totals creditsFirst es) = balanceOf type (es.map toBalance) := by
  rw [balanceOf_eq, balanceOf_eq, sum_toBalance]
  have hsum : ∀ d, ((es.filter (·.direction == d)).map (·.amountKobo)).sum = total d es := fun d => sumOf_filter
  -- a direction there is no entry of counts for nothing
  have hnone : ∀ d, (if es.any (·.direction == d) then (if d = .DEBIT then total d es else -total d es) else 0) =
      if d = .DEBIT then total d es else -total d es := by
    intro d
    by_cases hany : es.any (·.direction == d) = true
    · rw [if_pos hany]
    · have hzero : total d es = 0 := sumOf_eq_zero fun e he => by
        by_contra hdir
        exact hany (List.any_eq_true.mpr ⟨e, he, by simpa using hdir⟩)
      simp [hany, hzero]
  rw [totals, List.map_map]
  simp only [Function.comp_def, hsum, sumOf_filter]
  cases creditsFirst
  · rw [if_neg Bool.false_ne_true, sumOf_cons, sumOf_cons, sumOf_nil, hnone, hnone]
    simp [sub_eq_add_neg]
  · rw [if_pos rfl, sumOf_cons, sumOf_cons, sumOf_nil, hnone, hnone]
    simp [sub_eq_neg_add]

/-- The join finds each entry once, or not at all. -/
lemma joined_eq (cond : LedgerAccount → Bool) :
    joined cond db = db.ledgerEntries.filter (isOn db.ledgerAccounts cond) := by
  have hone : ∀ e : LedgerEntry,
      ((db.ledgerAccounts.rows.filter fun a => a.id == e.accountId && cond a).map fun _ => e) =
        if isOn db.ledgerAccounts cond e then [e] else [] := by
    intro e
    have hnames : Table.Names (fun a : LedgerAccount => a.id == e.accountId && cond a) (.id e.accountId) :=
      fun a ha => by
        simp only [Bool.and_eq_true, beq_iff_eq] at ha
        simp [Indexed.keys, ha.1]
    rw [Table.filter_of_names hnames, isOn]
    rcases hfind : db.ledgerAccounts.find (fun a => a.id == e.accountId && cond a) with _ | a
    · rw [if_neg]
      · rfl
      · simpa using Table.find_eq_none.mp hfind
    · rw [if_pos (List.any_eq_true.mpr ⟨a, Table.mem_of_find hfind, Table.of_find hfind⟩)]
      rfl
  rw [joined, List.flatMap_congr fun e _ => hone e]
  induction db.ledgerEntries with
  | nil => rfl
  | cons e es ih =>
    rw [List.flatMap_cons, ih, List.filter_cons]
    split <;> rfl

/-- The balance that is read is that of the account's entries. -/
theorem getBalance_eq (creditsFirst : Bool) (ownerId : Option Uuid) :
    getBalance creditsFirst type ownerId db = balanceOf type
      ((db.ledgerEntries.filter (isOn db.ledgerAccounts (isAccount type ownerId))).map toBalance) := by
  rw [getBalance, balanceOf_totals, joined_eq]

end Splitcore.Ledger
