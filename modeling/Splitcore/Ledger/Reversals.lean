import Mathlib.Algebra.BigOperators.Group.Finset.Piecewise
import Mathlib.Algebra.BigOperators.Ring.List
import Splitcore.Ledger.Balances
import Splitcore.Rounding.Doubles

/-!
Balances of accounts: what a reversal undoes, and what the clearing account holds.
-/

namespace Splitcore.Ledger

open Bookkeeping Rounding

/-- An account: its type and its owner. -/
abbrev Account := LedgerAccountType × Option Uuid

def LedgerEntrySpec.account (e : LedgerEntrySpec) : Account := (e.accountType, e.ownerId)

/-- The entries with `p`, as `balanceOf` takes them. -/
def linesWhere (p : LedgerEntrySpec → Bool) (entries : List LedgerEntrySpec) : List (LedgerDirection × ℤ) :=
  (entries.filter p).map fun e => (e.direction, e.amountKobo)

def linesOf (a : Account) (entries : List LedgerEntrySpec) : List (LedgerDirection × ℤ) :=
  linesWhere (·.account == a) entries

/-- An amount debited; a credit counts against it. -/
def net (line : LedgerDirection × ℤ) : ℤ := if line.1 = .DEBIT then line.2 else -line.2

variable {type : LedgerAccountType} {lines lines' : List (LedgerDirection × ℤ)}
  {entries : List LedgerEntrySpec} {payout : PayoutForPosting}

lemma balanceOf_net (type : LedgerAccountType) (lines : List (LedgerDirection × ℤ)) :
    balanceOf type lines = debitSign type * (lines.map net).sum := balanceOf_eq type lines

/-! ### Balances add up -/

theorem balanceOf_append : balanceOf type (lines ++ lines') = balanceOf type lines + balanceOf type lines' := by
  rw [balanceOf_net, balanceOf_net, balanceOf_net, List.map_append, List.sum_append, mul_add]

theorem balanceOf_perm (h : lines.Perm lines') : balanceOf type lines = balanceOf type lines' := by
  rw [balanceOf_net, balanceOf_net, (h.map net).sum_eq]

/-- The sum of one direction. -/
def sumOfDirection (d : LedgerDirection) (lines : List (LedgerDirection × ℤ)) : ℤ :=
  sumOf (·.1 == d) (·.2) lines

lemma sum_net (lines : List (LedgerDirection × ℤ)) : (lines.map net).sum =
    sumOfDirection .DEBIT lines - sumOfDirection .CREDIT lines := by
  induction lines with
  | nil => rfl
  | cons line lines ih =>
    simp only [List.map_cons, List.sum_cons, ih, sumOfDirection, sumOf_cons]
    rcases hd : line.1 <;> simp [net, hd] <;> ring

theorem balanceOf_sums (type : LedgerAccountType) (lines : List (LedgerDirection × ℤ)) :
    balanceOf type [(.DEBIT, sumOfDirection .DEBIT lines), (.CREDIT, sumOfDirection .CREDIT lines)] =
      balanceOf type lines := by
  rw [balanceOf_net, balanceOf_net, sum_net lines]
  simp [net, sub_eq_add_neg]

/-- In doubles, as the service computes it, with the rounding `fl`. -/
def balanceOfDoubles (fl : ℚ → ℚ) (type : LedgerAccountType) (lines : List (LedgerDirection × ℤ)) : ℚ :=
  let sign : ℤ := if type = .PROCESSOR_CLEARING then 1 else -1
  lines.foldl (fun sum e => fl (sum + ((if e.1 = .DEBIT then sign else -sign) * e.2 : ℤ))) 0

/-- **Doubles are exact** for what stays under `2 ^ 53` kobo in all. -/
theorem balanceOfDoubles_eq {fl : ℚ → ℚ} (hfl : Rounds fl)
    (hfit : (lines.map fun e => |e.2|).sum ≤ 2 ^ 53) :
    balanceOfDoubles fl type lines = balanceOf type lines := by
  have habs : ((lines.map fun e => debitSign type * net e).map fun y => |y|).sum =
      (lines.map fun e => |e.2|).sum := by
    rw [List.map_map]
    congr 1
    refine List.map_congr_left fun e _ => ?_
    simp only [Function.comp_apply, abs_mul, debitSign, net]
    split <;> split <;> simp
  have hfold := hfl.foldl_add (lines.map fun e => debitSign type * net e) 0
    (by rw [habs, abs_zero, zero_add]; exact hfit)
  rw [List.foldl_map, zero_add, List.sum_map_mul_left, ← balanceOf_net] at hfold
  rw [← hfold, balanceOfDoubles, Int.cast_zero]
  congr 1
  ext sum e
  unfold net debitSign
  split_ifs <;> simp

/-! ### What a reversal undoes -/

lemma linesOf_reversed (a : Account) (entries : List LedgerEntrySpec) :
    ((linesOf a (entries.map LedgerEntrySpec.reversed)).map net).sum = -((linesOf a entries).map net).sum := by
  induction entries with
  | nil => rfl
  | cons e entries ih =>
    have haccount : e.reversed.account = e.account := rfl
    simp only [linesOf, linesWhere, List.map_cons, List.filter_cons, haccount] at ih ⊢
    split
    · simp only [List.map_cons, List.sum_cons, ih]
      rcases hd : e.direction <;> simp [net, LedgerEntrySpec.reversed, hd] <;> ring
    · exact ih

/-- **A reversal undoes its payout** on every account, wherever their lines stand among others. -/
theorem balanceOf_reversal {paid reversed : List LedgerEntrySpec}
    (hpaid : computePayoutEntries payout = .ok paid)
    (hreversed : computePayoutReversalEntries payout = .ok reversed) (a : Account)
    (hperm : lines'.Perm (lines ++ linesOf a paid ++ linesOf a reversed)) :
    balanceOf a.1 lines' = balanceOf a.1 lines := by
  obtain ⟨-, -, -, rfl⟩ := computePayoutEntries_ok.mp hpaid
  obtain ⟨-, -, -, rfl⟩ := computePayoutReversalEntries_ok.mp hreversed
  have hundone : balanceOf a.1 (linesOf a ((payoutEntries payout).map LedgerEntrySpec.reversed)) =
      -balanceOf a.1 (linesOf a (payoutEntries payout)) := by
    rw [balanceOf_net, balanceOf_net, linesOf_reversed, mul_neg]
  rw [balanceOf_perm hperm, balanceOf_append, balanceOf_append, hundone, add_neg_cancel_right]

/-! ### What the clearing account holds -/

def LedgerEntrySpec.net (e : LedgerEntrySpec) : ℤ := if e.direction = .DEBIT then e.amountKobo else -e.amountKobo

def clears (e : LedgerEntrySpec) : Bool := e.accountType == .PROCESSOR_CLEARING

lemma sum_linesWhere (p : LedgerEntrySpec → Bool) (entries : List LedgerEntrySpec) :
    ((linesWhere p entries).map net).sum = sumOf p (·.net) entries := by
  rw [linesWhere, List.map_map, ← sumOf_filter]; rfl

lemma net_balanced (h : assertBalanced entries = .ok ()) : sumOf (fun _ => true) (·.net) entries = 0 := by
  obtain ⟨-, -, hbalanced⟩ := assertBalanced_ok.mp h
  have hsplit : sumOf (fun _ => true) (·.net) entries = totalOf .DEBIT entries - totalOf .CREDIT entries := by
    clear h hbalanced
    induction entries with
    | nil => rfl
    | cons e entries ih =>
      rw [sumOf_cons, ih, totalOf, totalOf, totalOf, totalOf, List.map_cons, List.map_cons,
        List.sum_cons, List.sum_cons, if_pos rfl]
      rcases hd : e.direction <;> simp [LedgerEntrySpec.net, hd] <;> ring
  rw [hsplit, hbalanced, sub_self]

lemma net_postings {postings : List (List LedgerEntrySpec)}
    (h : ∀ posting ∈ postings, assertBalanced posting = .ok ()) :
    sumOf (fun _ => true) (·.net) postings.flatten = 0 := by
  induction postings with
  | nil => rfl
  | cons posting postings ih =>
    rw [List.flatten_cons, sumOf_append, net_balanced (h posting (by simp)),
      ih fun p hp => h p (List.mem_cons_of_mem _ hp), add_zero]

/-- Each entry is on one account. -/
lemma sum_accounts {accounts : Finset Account} (hnot : ∀ a ∈ accounts, a.1 ≠ .PROCESSOR_CLEARING)
    (hall : ∀ e ∈ entries, clears e = false → e.account ∈ accounts) :
    ∑ a ∈ accounts, sumOf (·.account == a) (·.net) entries =
      sumOf (fun e => !clears e) (·.net) entries := by
  induction entries with
  | nil => simp
  | cons e entries ih =>
    simp only [sumOf_cons, Finset.sum_add_distrib, ih fun e' he' => hall e' (List.mem_cons_of_mem _ he')]
    congr 1
    simp only [beq_iff_eq, Finset.sum_ite_eq]
    by_cases hclears : clears e = true
    · have htype : e.accountType = .PROCESSOR_CLEARING := beq_iff_eq.mp hclears
      rw [if_neg fun hmem => hnot _ hmem htype]
      simp [hclears]
    · rw [if_pos (hall e (by simp) (by simpa using hclears))]
      simp [hclears]

/-- **The clearing balance is what is owed**: the sum of the balances of all other accounts. -/
theorem balanceOf_clearing {postings : List (List LedgerEntrySpec)} {accounts : Finset Account}
    (h : ∀ posting ∈ postings, assertBalanced posting = .ok ())
    (hnot : ∀ a ∈ accounts, a.1 ≠ .PROCESSOR_CLEARING)
    (hall : ∀ e ∈ postings.flatten, clears e = false → e.account ∈ accounts) :
    balanceOf .PROCESSOR_CLEARING (linesWhere clears postings.flatten) =
      ∑ a ∈ accounts, balanceOf a.1 (linesOf a postings.flatten) := by
  have hothers : ∀ a ∈ accounts, balanceOf a.1 (linesOf a postings.flatten) =
      -sumOf (·.account == a) (·.net) postings.flatten := by
    intro a ha
    rw [balanceOf_net, linesOf, sum_linesWhere, debitSign, if_neg (hnot a ha), neg_one_mul]
  have hparts : sumOf clears (·.net) postings.flatten + sumOf (fun e => !clears e) (·.net) postings.flatten =
      0 := by
    rw [← net_postings h]
    clear h hothers hall
    induction postings.flatten with
    | nil => rfl
    | cons e entries ih =>
      simp only [sumOf_cons] at ih ⊢
      cases clears e <;> simp <;> omega
  rw [Finset.sum_congr rfl hothers, Finset.sum_neg_distrib, sum_accounts hnot hall, balanceOf_net,
    sum_linesWhere, debitSign, if_pos rfl, one_mul]
  omega

/-- The system accounts have no owner. -/
lemma linesOf_clearing (h : ∀ e ∈ entries, e.accountType = .PROCESSOR_CLEARING → e.ownerId = none) :
    linesOf (.PROCESSOR_CLEARING, none) entries = linesWhere clears entries := by
  unfold linesOf linesWhere
  congr 1
  refine List.filter_congr fun e he => ?_
  rw [Bool.eq_iff_iff, beq_iff_eq, clears, beq_iff_eq, LedgerEntrySpec.account, Prod.mk.injEq]
  exact ⟨fun haccount => haccount.1, fun hclears => ⟨hclears, h e he hclears⟩⟩

/-! ### The ledger's algebra -/

/-- **A reversal exactly undoes a payout, and balances add up**: whatever stands between the lines
of the two; by parts, in any order, and by the sums of the two directions, as the database groups
them; and the clearing account, by type or where it has no owner, against all the others. -/
theorem balances_add_up :
    (∀ payout : PayoutForPosting, isPayable payout.accountType = true → payout.ownerId ≠ none →
      Postable payout.amountKobo → ∃ paid reversed, computePayoutEntries payout = .ok paid ∧
        computePayoutReversalEntries payout = .ok reversed ∧
        ∀ (a : Account) (lines lines' : List (LedgerDirection × ℤ)),
          lines'.Perm (lines ++ linesOf a paid ++ linesOf a reversed) →
            balanceOf a.1 lines' = balanceOf a.1 lines) ∧
    (∀ type lines lines', balanceOf type (lines ++ lines') = balanceOf type lines + balanceOf type lines') ∧
    (∀ type lines lines', lines.Perm lines' → balanceOf type lines = balanceOf type lines') ∧
    (∀ type lines, balanceOf type [(.DEBIT, sumOfDirection .DEBIT lines),
      (.CREDIT, sumOfDirection .CREDIT lines)] = balanceOf type lines) ∧
    (∀ creditsFirst type ownerId db, getBalance creditsFirst type ownerId db = balanceOf type
      ((db.ledgerEntries.filter (isOn db.ledgerAccounts (isAccount type ownerId))).map toBalance)) ∧
    ∀ (postings : List (List LedgerEntrySpec)) (accounts : Finset Account),
      (∀ posting ∈ postings, assertBalanced posting = .ok ()) →
      (∀ a ∈ accounts, a.1 ≠ .PROCESSOR_CLEARING) →
      (∀ e ∈ postings.flatten, clears e = false → e.account ∈ accounts) →
      balanceOf .PROCESSOR_CLEARING (linesWhere clears postings.flatten) =
        ∑ a ∈ accounts, balanceOf a.1 (linesOf a postings.flatten) ∧
      ((∀ e ∈ postings.flatten, e.accountType = .PROCESSOR_CLEARING → e.ownerId = none) →
        balanceOf .PROCESSOR_CLEARING (linesOf (.PROCESSOR_CLEARING, none) postings.flatten) =
          ∑ a ∈ accounts, balanceOf a.1 (linesOf a postings.flatten)) := by
  refine ⟨fun payout hpayable howner hamount => ?_, fun type lines lines' => balanceOf_append,
    fun type lines lines' => balanceOf_perm, balanceOf_sums,
    fun creditsFirst type ownerId db => getBalance_eq creditsFirst ownerId,
    fun postings accounts h hnot hall => ?_⟩
  · have hpaid := computePayoutEntries_ok.mpr ⟨hpayable, howner, hamount, rfl⟩
    have hreversed := computePayoutReversalEntries_ok.mpr ⟨hpayable, howner, hamount, rfl⟩
    exact ⟨_, _, hpaid, hreversed, fun a lines lines' hperm => balanceOf_reversal hpaid hreversed a hperm⟩
  · have hclearing := balanceOf_clearing h hnot hall
    exact ⟨hclearing, fun howner => by rw [linesOf_clearing howner, hclearing]⟩

def performer : Uuid := ⟨1⟩

/-- A payment and the payout of the entertainer's share. -/
def paidOut : List (List LedgerEntrySpec) :=
  [[⟨.PROCESSOR_CLEARING, none, .DEBIT, 500000⟩, ⟨.ENTERTAINER_PAYABLE, some performer, .CREDIT, 425000⟩,
    ⟨.PLATFORM_REVENUE, none, .CREDIT, 75000⟩],
   [⟨.ENTERTAINER_PAYABLE, some performer, .DEBIT, 425000⟩, ⟨.PROCESSOR_CLEARING, none, .CREDIT, 425000⟩]]

theorem balances_add_up_sample : (∃ paid reversed,
      computePayoutEntries ⟨.ENTERTAINER_PAYABLE, some performer, 425000⟩ = .ok paid ∧
      computePayoutReversalEntries ⟨.ENTERTAINER_PAYABLE, some performer, 425000⟩ = .ok reversed ∧
      balanceOf .PROCESSOR_CLEARING (linesOf (.PROCESSOR_CLEARING, none) paid ++ [(.DEBIT, 7)] ++
        linesOf (.PROCESSOR_CLEARING, none) reversed) = 7) ∧
    balanceOf .PROCESSOR_CLEARING (linesOf (.PROCESSOR_CLEARING, none) paidOut.flatten) =
      ∑ a ∈ {(.ENTERTAINER_PAYABLE, some performer), (.PLATFORM_REVENUE, none)},
        balanceOf a.1 (linesOf a paidOut.flatten) := by
  obtain ⟨hreversal, -, hperm, -, -, hclearing⟩ := balances_add_up
  refine ⟨?_, (hclearing paidOut _ (by decide) (by decide) (by decide)).2 (by decide)⟩
  obtain ⟨paid, reversed, hpaid, hreversed, hundone⟩ :=
    hreversal ⟨.ENTERTAINER_PAYABLE, some performer, 425000⟩ rfl (by decide) ⟨by decide, by decide⟩
  refine ⟨paid, reversed, hpaid, hreversed, ?_⟩
  rw [hundone (.PROCESSOR_CLEARING, none) [(.DEBIT, 7)] _ (List.perm_append_comm.append_right _)]
  decide

end Splitcore.Ledger
