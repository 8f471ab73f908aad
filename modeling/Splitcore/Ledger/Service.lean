import Mathlib.Tactic.Linarith
import Splitcore.Tx

/-!
The ledger service: which entries a payment, a payout or a reversal is posted as. Pure
functions, no database.

Amounts are kobo in `Int` columns, so the products below stay far under `2 ^ 53` and the
floor of the quotient is that of integers.
-/

namespace Splitcore.Ledger

def BASIS_POINTS_TOTAL : ℤ := 10000

structure LedgerEntrySpec where
  accountType : LedgerAccountType
  ownerId : Option Uuid
  direction : LedgerDirection
  amountKobo : ℤ
deriving DecidableEq

structure PaymentForPosting where
  grossAmountKobo : ℤ
  venueId : Uuid
  entertainerId : Option Uuid
deriving DecidableEq

structure SplitForPosting where
  entertainerBps : ℤ
  venueBps : ℤ
  platformBps : ℤ
deriving DecidableEq

structure PayoutForPosting where
  accountType : LedgerAccountType
  ownerId : Option Uuid
  amountKobo : ℤ
deriving DecidableEq

/-- `Number.isSafeInteger`. -/
def isSafeInteger (x : ℤ) : Bool := -(2 ^ 53 - 1) ≤ x && x ≤ 2 ^ 53 - 1

def isPayable (type : LedgerAccountType) : Bool :=
  type == .ENTERTAINER_PAYABLE || type == .VENUE_PAYABLE

/-- The running totals of debits and credits. -/
def addEntry (totals : ℤ × ℤ) (entry : LedgerEntrySpec) : Except Err (ℤ × ℤ) :=
  if !isSafeInteger entry.amountKobo || entry.amountKobo ≤ 0 then
    .error (.invalidPosting
      ("Entry amounts must be positive integer kobo, got " ++ toString entry.amountKobo))
  else if entry.direction = .DEBIT then .ok (totals.1 + entry.amountKobo, totals.2)
  else .ok (totals.1, totals.2 + entry.amountKobo)

def assertBalanced (entries : List LedgerEntrySpec) : Except Err Unit := do
  let totals ← entries.foldlM addEntry (0, 0)
  if entries.length = 0 ∨ totals.1 ≠ totals.2 then
    .error (.unbalancedLedger totals.1 totals.2)
  else .ok ()

/-- `floor(amount × bps / 10000)`. -/
def applyBasisPoints (amountKobo basisPoints : ℤ) : ℤ :=
  amountKobo * basisPoints / BASIS_POINTS_TOTAL

def assertValidSplit (split : SplitForPosting) : Except Err Unit :=
  let parts := [split.entertainerBps, split.venueBps, split.platformBps]
  if parts.any (· < 0) then
    .error (.invalidPosting "Split basis points must be non-negative integers")
  else if parts.foldl (· + ·) 0 ≠ BASIS_POINTS_TOTAL then
    .error (.invalidPosting
      ("Split basis points sum to " ++ toString (parts.foldl (· + ·) 0) ++ ", expected 10000"))
  else .ok ()

/-- A line of a posting; zero-value lines are omitted. -/
def line (accountType : LedgerAccountType) (ownerId : Option Uuid) (amountKobo : ℤ) :
    List LedgerEntrySpec :=
  if amountKobo > 0 then [⟨accountType, ownerId, .CREDIT, amountKobo⟩] else []

/-- The entertainer's share is floored. -/
def entertainerShare (payment : PaymentForPosting) (split : SplitForPosting) : ℤ :=
  if payment.entertainerId.isSome
  then applyBasisPoints payment.grossAmountKobo split.entertainerBps else 0

/-- Without an entertainer the venue gets both shares. -/
def venueShare (payment : PaymentForPosting) (split : SplitForPosting) : ℤ :=
  let venueBps := if payment.entertainerId.isSome
    then split.venueBps else split.venueBps + split.entertainerBps
  applyBasisPoints payment.grossAmountKobo venueBps

/-- The platform takes the remainder. -/
def platformShare (payment : PaymentForPosting) (split : SplitForPosting) : ℤ :=
  payment.grossAmountKobo - entertainerShare payment split - venueShare payment split

def paymentEntries (payment : PaymentForPosting) (split : SplitForPosting) :
    List LedgerEntrySpec :=
  ⟨.PROCESSOR_CLEARING, none, .DEBIT, payment.grossAmountKobo⟩ ::
    (line .ENTERTAINER_PAYABLE payment.entertainerId (entertainerShare payment split) ++
      line .VENUE_PAYABLE (some payment.venueId) (venueShare payment split) ++
      line .PLATFORM_REVENUE none (platformShare payment split))

def computePaymentEntries (payment : PaymentForPosting) (split : SplitForPosting) :
    Except Err (List LedgerEntrySpec) := do
  assertValidSplit split
  if !isSafeInteger payment.grossAmountKobo || payment.grossAmountKobo ≤ 0 then
    .error (.invalidPosting
      ("Gross amount must be a positive integer kobo, got " ++ toString payment.grossAmountKobo))
  else
    assertBalanced (paymentEntries payment split)
    .ok (paymentEntries payment split)

def assertPayable (payout : PayoutForPosting) : Except Err Unit :=
  if !isPayable payout.accountType then
    .error (.invalidPosting ("Cannot pay out from a " ++ payout.accountType.name ++ " account"))
  else if payout.ownerId.isNone then
    .error (.invalidPosting "Payable account must have an owner")
  else .ok ()

def computePayoutEntries (payout : PayoutForPosting) : Except Err (List LedgerEntrySpec) := do
  assertPayable payout
  let entries := [⟨payout.accountType, payout.ownerId, .DEBIT, payout.amountKobo⟩,
    ⟨.PROCESSOR_CLEARING, none, .CREDIT, payout.amountKobo⟩]
  assertBalanced entries
  .ok entries

def LedgerEntrySpec.reversed (entry : LedgerEntrySpec) : LedgerEntrySpec :=
  { entry with direction := if entry.direction = .DEBIT then .CREDIT else .DEBIT }

def computePayoutReversalEntries (payout : PayoutForPosting) :
    Except Err (List LedgerEntrySpec) :=
  (computePayoutEntries payout).map (·.map LedgerEntrySpec.reversed)

/-- The balance in the account's normal sense: the clearing account is debit-normal, the
others credit-normal. -/
def balanceOf (accountType : LedgerAccountType) (entries : List (LedgerDirection × ℤ)) : ℤ :=
  let sign : ℤ := if accountType = .PROCESSOR_CLEARING then 1 else -1
  entries.foldl (fun sum e => sum + (if e.1 = .DEBIT then sign else -sign) * e.2) 0

/-! ### What the checks let through -/

section Lemmas

variable {entries : List LedgerEntrySpec} {payment : PaymentForPosting} {split : SplitForPosting}
  {payout : PayoutForPosting}

def totalOf (d : LedgerDirection) (entries : List LedgerEntrySpec) : ℤ :=
  (entries.map fun e => if e.direction = d then e.amountKobo else 0).sum

/-- The amounts the ledger accepts. -/
def Postable (amountKobo : ℤ) : Prop := isSafeInteger amountKobo = true ∧ 0 < amountKobo

lemma addEntry_ok {t t' : ℤ × ℤ} {e : LedgerEntrySpec} :
    addEntry t e = .ok t' ↔ Postable e.amountKobo ∧
      t' = (t.1 + (if e.direction = .DEBIT then e.amountKobo else 0),
        t.2 + (if e.direction = .CREDIT then e.amountKobo else 0)) := by
  unfold addEntry Postable
  by_cases hs : isSafeInteger e.amountKobo = true
  · by_cases hp : e.amountKobo ≤ 0
    · simp [hp, not_lt.mpr hp]
    · rw [if_neg (by simp [hs, hp])]
      cases hd : e.direction <;> simp [hs, not_le.mp hp, eq_comm]
  · simp [hs]

lemma foldlM_addEntry_ok {t t' : ℤ × ℤ} :
    entries.foldlM addEntry t = .ok t' ↔ (∀ e ∈ entries, Postable e.amountKobo) ∧
      t' = (t.1 + totalOf .DEBIT entries, t.2 + totalOf .CREDIT entries) := by
  induction entries generalizing t with
  | nil => simp [totalOf, pure, Except.pure, eq_comm]
  | cons e es ih =>
    have hsplit : (e :: es).foldlM addEntry t = .ok t' ↔
        ∃ u, addEntry t e = .ok u ∧ es.foldlM addEntry u = .ok t' := by
      rw [List.foldlM_cons]
      rcases addEntry t e with _ | u <;> simp [bind, Except.bind]
    rw [hsplit]
    simp only [addEntry_ok, ih, List.forall_mem_cons]
    constructor
    · rintro ⟨u, ⟨hp, rfl⟩, hps, rfl⟩
      exact ⟨⟨hp, hps⟩, by simp only [totalOf, List.map_cons, List.sum_cons, add_assoc]⟩
    · rintro ⟨⟨hp, hps⟩, rfl⟩
      exact ⟨_, ⟨hp, rfl⟩, hps, by simp only [totalOf, List.map_cons, List.sum_cons, add_assoc]⟩

/-- **What a balanced posting is**: some entries, all of positive amounts, with as much
debited as credited. -/
theorem assertBalanced_ok : assertBalanced entries = .ok () ↔ entries ≠ [] ∧
    (∀ e ∈ entries, Postable e.amountKobo) ∧ totalOf .DEBIT entries = totalOf .CREDIT entries := by
  unfold assertBalanced
  rcases h : entries.foldlM addEntry (0, 0) with e | t
  · simp only [bind, Except.bind, reduceCtorEq, false_iff]
    rintro ⟨-, hp, -⟩
    rw [foldlM_addEntry_ok.mpr ⟨hp, rfl⟩] at h
    cases h
  · obtain ⟨hp, rfl⟩ := foldlM_addEntry_ok.mp h
    have hp' : (∀ e ∈ entries, Postable e.amountKobo) = True := eq_true hp
    simp only [bind, Except.bind, zero_add, List.length_eq_zero_iff, hp', true_and]
    by_cases hn : entries = [] <;>
      by_cases hb : totalOf .DEBIT entries = totalOf .CREDIT entries <;> simp [hn, hb]

/-- The two entries of a payout. -/
def payoutEntries (payout : PayoutForPosting) : List LedgerEntrySpec :=
  [⟨payout.accountType, payout.ownerId, .DEBIT, payout.amountKobo⟩,
    ⟨.PROCESSOR_CLEARING, none, .CREDIT, payout.amountKobo⟩]

lemma assertPayable_ok : assertPayable payout = .ok () ↔
    isPayable payout.accountType = true ∧ payout.ownerId ≠ none := by
  unfold assertPayable
  by_cases hp : isPayable payout.accountType = true <;>
    rcases ho : payout.ownerId with _ | o <;> simp [hp]

theorem computePayoutEntries_ok : computePayoutEntries payout = .ok entries ↔
    isPayable payout.accountType = true ∧ payout.ownerId ≠ none ∧ Postable payout.amountKobo ∧
      entries = payoutEntries payout := by
  have hb : assertBalanced (payoutEntries payout) = .ok () ↔ Postable payout.amountKobo := by
    rw [assertBalanced_ok]
    simp [payoutEntries, totalOf]
  unfold computePayoutEntries
  rcases ha : assertPayable payout with e | ⟨⟩
  · have := mt assertPayable_ok.mpr (by rw [ha]; simp)
    simp only [bind, Except.bind, reduceCtorEq, false_iff]
    exact fun h => this ⟨h.1, h.2.1⟩
  · obtain ⟨h1, h2⟩ := assertPayable_ok.mp ha
    change (do assertBalanced (payoutEntries payout); Except.ok (payoutEntries payout)) = _ ↔ _
    rcases hbe : assertBalanced (payoutEntries payout) with e | ⟨⟩
    · have := mt hb.mpr (by rw [hbe]; simp)
      simp [bind, Except.bind, this]
    · simp [bind, Except.bind, h1, h2, hb.mp hbe, eq_comm]

lemma computePayoutReversalEntries_ok : computePayoutReversalEntries payout = .ok entries ↔
    isPayable payout.accountType = true ∧ payout.ownerId ≠ none ∧ Postable payout.amountKobo ∧
      entries = (payoutEntries payout).map LedgerEntrySpec.reversed := by
  unfold computePayoutReversalEntries
  rcases h : computePayoutEntries payout with e | es
  · simp only [Except.map, reduceCtorEq, false_iff]
    rintro ⟨h1, h2, h3, -⟩
    rw [computePayoutEntries_ok.mpr ⟨h1, h2, h3, rfl⟩] at h
    cases h
  · obtain ⟨h1, h2, h3, rfl⟩ := computePayoutEntries_ok.mp h
    simp [Except.map, h1, h2, h3, eq_comm]

/-- The balance of a payable account: what was credited less what was debited. -/
lemma balanceOf_payable {type : LedgerAccountType} (h : isPayable type = true)
    (es : List (LedgerDirection × ℤ)) : balanceOf type es =
      -(es.map fun e => if e.1 = .DEBIT then e.2 else -e.2).sum := by
  have htype : type ≠ .PROCESSOR_CLEARING := by rintro rfl; cases h
  have hfold : ∀ (x : ℤ), es.foldl (fun sum e => sum + (if e.1 = .DEBIT then -1 else 1) * e.2) x =
      x - (es.map fun e => if e.1 = .DEBIT then e.2 else -e.2).sum := by
    induction es with
    | nil => simp
    | cons e es ih =>
      intro x
      rw [List.foldl_cons, ih, List.map_cons, List.sum_cons]
      split <;> omega
  have := hfold 0
  simpa [balanceOf, htype] using this

lemma mem_line {type : LedgerAccountType} {owner : Option Uuid} {x : ℤ} {e : LedgerEntrySpec} :
    e ∈ line type owner x ↔ 0 < x ∧ e = ⟨type, owner, .CREDIT, x⟩ := by
  unfold line
  split <;> simp_all

lemma computePaymentEntries_ok (h : computePaymentEntries payment split = .ok entries) :
    assertBalanced entries = .ok () ∧ entries = paymentEntries payment split := by
  unfold computePaymentEntries at h
  rcases hv : assertValidSplit split with e | ⟨⟩ <;>
    simp only [hv, bind, Except.bind, reduceCtorEq] at h
  split at h
  · cases h
  rcases hb : assertBalanced (paymentEntries payment split) with e | ⟨⟩ <;>
    simp only [hb, reduceCtorEq, Except.ok.injEq] at h
  subst h
  exact ⟨hb, rfl⟩

/-- A payment posts one debit, on the clearing account; what it posts to a payable account is
a credit of the entertainer or of the venue. -/
theorem mem_paymentEntries {e : LedgerEntrySpec} (he : e ∈ paymentEntries payment split)
    (hpay : isPayable e.accountType = true) : e.direction = .CREDIT ∧
      (e.accountType = .ENTERTAINER_PAYABLE ∧ e.ownerId = payment.entertainerId ∨
        e.accountType = .VENUE_PAYABLE ∧ e.ownerId = some payment.venueId) := by
  simp only [paymentEntries, List.mem_cons, List.mem_append, mem_line] at he
  obtain rfl | (⟨-, rfl⟩ | ⟨-, rfl⟩) | ⟨-, rfl⟩ := he
  · cases hpay
  · exact ⟨rfl, .inl ⟨rfl, rfl⟩⟩
  · exact ⟨rfl, .inr ⟨rfl, rfl⟩⟩
  · cases hpay

end Lemmas

end Splitcore.Ledger
