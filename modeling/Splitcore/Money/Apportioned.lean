import Splitcore.Money.Accepted
import Splitcore.Rounding.Doubles

/-!
The posting of a payment, as it is specified.

The entertainer and the venue are due the whole part of a fraction of what was paid, and the platform
is due what is left. The entries are compared with this: which lines there are, whose they are and of
how much, and when there are none because the split is refused.
-/

namespace Splitcore.Money

open Ledger Rounding

/-- The whole part of a fraction of an amount, in basis points. -/
def due (amountKobo basisPoints : ℤ) : ℤ := ⌊(amountKobo * basisPoints / 10000 : ℚ)⌋

def dueEntertainer (payment : PaymentForPosting) (split : SplitForPosting) : ℤ :=
  match payment.entertainerId with
  | some _ => due payment.grossAmountKobo split.entertainerBps
  | none => 0

def dueVenue (payment : PaymentForPosting) (split : SplitForPosting) : ℤ :=
  match payment.entertainerId with
  | some _ => due payment.grossAmountKobo split.venueBps
  | none => due payment.grossAmountKobo (split.venueBps + split.entertainerBps)

def duePlatform (payment : PaymentForPosting) (split : SplitForPosting) : ℤ :=
  payment.grossAmountKobo - dueEntertainer payment split - dueVenue payment split

/-- Shares that are not of a whole. -/
def BadSplit (split : SplitForPosting) : Prop :=
  split.entertainerBps < 0 ∨ split.venueBps < 0 ∨ split.platformBps < 0 ∨
    split.entertainerBps + split.venueBps + split.platformBps ≠ 10000

/-- The entries say who is due what. -/
structure Apportioned (payment : PaymentForPosting) (split : SplitForPosting) (entries : List LedgerEntrySpec) :
    Prop where
  debit : entries.filter (·.direction == .DEBIT) =
    [⟨.PROCESSOR_CLEARING, none, .DEBIT, payment.grossAmountKobo⟩]
  once : ∀ type, (entries.filter fun e => e.direction == .CREDIT && e.accountType == type).length ≤ 1
  credit : ∀ e : LedgerEntrySpec, e.direction = .CREDIT → (e ∈ entries ↔ 0 < e.amountKobo ∧
    (e = ⟨.ENTERTAINER_PAYABLE, payment.entertainerId, .CREDIT, dueEntertainer payment split⟩ ∨
      e = ⟨.VENUE_PAYABLE, some payment.venueId, .CREDIT, dueVenue payment split⟩ ∨
      e = ⟨.PLATFORM_REVENUE, none, .CREDIT, duePlatform payment split⟩))
  total : totalOf .CREDIT entries = payment.grossAmountKobo
  remainder : due payment.grossAmountKobo split.platformBps ≤ duePlatform payment split ∧
    duePlatform payment split ≤ due payment.grossAmountKobo split.platformBps +
      if payment.entertainerId.isSome then 2 else 1

/-- The products are of integers below `2 ^ 53`, and the floor of what a double makes of their quotient
is that of the integers. -/
def Exact (payment : PaymentForPosting) (split : SplitForPosting) : Prop :=
  ∀ x ∈ products payment split, 0 ≤ x ∧ x < 2 ^ 53 ∧
    ∀ fl, Rounds fl → fl x = x ∧ ⌊fl (fl x / 10000)⌋ = x / BASIS_POINTS_TOTAL

section Division

variable {payment : PaymentForPosting} {split : SplitForPosting}

lemma applyBasisPoints_eq (amountKobo basisPoints : ℤ) :
    applyBasisPoints amountKobo basisPoints = due amountKobo basisPoints := by
  have hfloor : ⌊((amountKobo * basisPoints : ℤ) : ℚ) / ((10000 : ℕ) : ℚ)⌋ =
      amountKobo * basisPoints / ((10000 : ℕ) : ℤ) := Rat.floor_intCast_div_natCast _ _
  unfold due applyBasisPoints BASIS_POINTS_TOTAL
  push_cast at hfloor
  exact hfloor.symm

lemma entertainerShare_eq : entertainerShare payment split = dueEntertainer payment split := by
  unfold entertainerShare dueEntertainer
  rcases payment.entertainerId with _ | id
  · rfl
  · exact applyBasisPoints_eq _ _

lemma venueShare_eq : venueShare payment split = dueVenue payment split := by
  unfold venueShare dueVenue
  rcases payment.entertainerId with _ | id <;> exact applyBasisPoints_eq _ _

lemma platformShare_eq : platformShare payment split = duePlatform payment split := by
  rw [platformShare, duePlatform, entertainerShare_eq, venueShare_eq]

lemma divisible_of_good (hpos : 1 ≤ payment.grossAmountKobo) (hle : payment.grossAmountKobo ≤ 1000000000)
    (h : ¬ BadSplit split) : Divisible payment split := by
  simp only [BadSplit, not_or, not_lt, not_not] at h
  exact ⟨by omega, hle, h.1, h.2.1, h.2.2.1, h.2.2.2⟩

/-- A bad split is refused before anything else is looked at. -/
lemma BadSplit.refused (h : BadSplit split) (payment : PaymentForPosting) :
    ∃ m, computePaymentEntries payment split = .error (.invalidPosting m) := by
  have hrefused : ∃ m, assertValidSplit split = .error (.invalidPosting m) := by
    unfold assertValidSplit
    by_cases hany : ([split.entertainerBps, split.venueBps, split.platformBps].any (· < 0)) = true
    · exact ⟨_, if_pos hany⟩
    · have hsum : [split.entertainerBps, split.venueBps, split.platformBps].foldl (· + ·) 0 ≠
          BASIS_POINTS_TOTAL := by
        simp only [List.any_cons, List.any_nil, Bool.or_false, Bool.or_eq_true, decide_eq_true_eq, not_or]
          at hany
        simp only [List.foldl_cons, List.foldl_nil, zero_add, BASIS_POINTS_TOTAL]
        obtain he | hv | hp | hsum := h
        · exact absurd he hany.1
        · exact absurd hv hany.2.1
        · exact absurd hp hany.2.2
        · exact hsum
      simp only [if_neg hany, if_pos hsum]
      exact ⟨_, rfl⟩
  obtain ⟨m, hm⟩ := hrefused
  exact ⟨m, by simp only [computePaymentEntries, hm, bind, Except.bind]⟩

/-- What is floored away of the shares goes to the platform: less than one for each. -/
lemma Divisible.remainder (h : Divisible payment split) :
    due payment.grossAmountKobo split.platformBps ≤ duePlatform payment split ∧
      duePlatform payment split ≤ due payment.grossAmountKobo split.platformBps +
        if payment.entertainerId.isSome then 2 else 1 := by
  have hparts : payment.grossAmountKobo * split.entertainerBps + payment.grossAmountKobo * split.venueBps +
      payment.grossAmountKobo * split.platformBps = payment.grossAmountKobo * 10000 := by
    rw [← h.sum]
    ring
  simp only [duePlatform, dueEntertainer, dueVenue, ← applyBasisPoints_eq]
  unfold applyBasisPoints BASIS_POINTS_TOTAL
  rcases payment.entertainerId with _ | id
  · simp only [mul_add, Option.isSome_none, Bool.false_eq_true, ite_false]
    omega
  · simp only [Option.isSome_some, ite_true]
    omega

lemma filter_line_debit {type : LedgerAccountType} {owner : Option Uuid} {x : ℤ} :
    (line type owner x).filter (·.direction == .DEBIT) = [] := by
  unfold line
  split <;> rfl

lemma filter_line_credit (type type' : LedgerAccountType) (owner : Option Uuid) (x : ℤ) :
    ((line type owner x).filter fun e => e.direction == .CREDIT && e.accountType == type').length ≤
      if type = type' then 1 else 0 := by
  unfold line
  split
  · by_cases htype : type = type' <;> simp [htype]
  · simp

/-- **The lines of a whole** are what each party is due. -/
theorem Divisible.apportioned (h : Divisible payment split) :
    Apportioned payment split (paymentEntries payment split) where
  debit := by simp [paymentEntries, filter_line_debit]
  once type := by
    have hentertainer := filter_line_credit .ENTERTAINER_PAYABLE type payment.entertainerId
      (entertainerShare payment split)
    have hvenue := filter_line_credit .VENUE_PAYABLE type (some payment.venueId) (venueShare payment split)
    have hplatform := filter_line_credit .PLATFORM_REVENUE type none (platformShare payment split)
    rw [paymentEntries, List.filter_cons_of_neg Bool.false_ne_true, List.filter_append, List.filter_append,
      List.length_append, List.length_append]
    cases type <;> simp only [reduceCtorEq, ite_true, ite_false] at hentertainer hvenue hplatform <;> omega
  credit e he := by
    have hdebit : e ≠ ⟨.PROCESSOR_CLEARING, none, .DEBIT, payment.grossAmountKobo⟩ := by
      rintro rfl
      cases he
    simp only [paymentEntries, List.mem_cons, List.mem_append, mem_line, hdebit, false_or,
      entertainerShare_eq, venueShare_eq, platformShare_eq]
    constructor
    · rintro ((⟨hpos, rfl⟩ | ⟨hpos, rfl⟩) | ⟨hpos, rfl⟩)
      · exact ⟨hpos, .inl rfl⟩
      · exact ⟨hpos, .inr (.inl rfl)⟩
      · exact ⟨hpos, .inr (.inr rfl)⟩
    · rintro ⟨hpos, rfl | rfl | rfl⟩
      · exact .inl (.inl ⟨hpos, rfl⟩)
      · exact .inl (.inr ⟨hpos, rfl⟩)
      · exact .inr ⟨hpos, rfl⟩
  total := h.totals .CREDIT
  remainder := h.remainder

lemma Divisible.exact (h : Divisible payment split) : Exact payment split := by
  intro x hx
  obtain ⟨hnonneg, hle⟩ := h.products_le x hx
  refine ⟨hnonneg, by omega, fun fl hfl => ?_⟩
  have hinteger : fl x = x := hfl.integer (by rw [abs_of_nonneg hnonneg]; omega)
  refine ⟨hinteger, ?_⟩
  rw [hinteger]
  exact_mod_cast hfl.floor_div (n := 10000) (j := 14) hnonneg (by decide) (by decide) (by decide) (by omega)

end Division

/-- **The posting of a payment meets its specification.** -/
theorem computePaymentEntries_spec (payment : PaymentForPosting) (split : SplitForPosting)
    (hpos : 1 ≤ payment.grossAmountKobo) (hle : payment.grossAmountKobo ≤ 1000000000) :
    ((∃ m, computePaymentEntries payment split = .error (.invalidPosting m)) ↔ BadSplit split) ∧
      (∀ debits credits, computePaymentEntries payment split ≠ .error (.unbalancedLedger debits credits)) ∧
      (¬ BadSplit split → Exact payment split ∧
        ∃ entries, computePaymentEntries payment split = .ok entries ∧ Apportioned payment split entries) := by
  by_cases hbad : BadSplit split
  · obtain ⟨m, hm⟩ := hbad.refused payment
    refine ⟨iff_of_true ⟨m, hm⟩ hbad, fun debits credits h => ?_, fun h => absurd hbad h⟩
    rw [hm] at h
    cases h
  · have hdivisible := divisible_of_good hpos hle hbad
    refine ⟨iff_of_false ?_ hbad, fun debits credits h => ?_, fun _ =>
      ⟨hdivisible.exact, _, hdivisible.computed, hdivisible.apportioned⟩⟩
    · rintro ⟨m, hm⟩
      rw [hdivisible.computed] at hm
      cases hm
    · rw [hdivisible.computed] at h
      cases h

/-- Both fractions are floored, and what they leave is the platform's. -/
theorem computePaymentEntries_spec_sample :
    let payment : PaymentForPosting := ⟨10003, uid 1, some (uid 2)⟩
    let split : SplitForPosting := ⟨8500, 1000, 500⟩
    computePaymentEntries payment split = .ok
        [⟨.PROCESSOR_CLEARING, none, .DEBIT, 10003⟩, ⟨.ENTERTAINER_PAYABLE, some (uid 2), .CREDIT, 8502⟩,
          ⟨.VENUE_PAYABLE, some (uid 1), .CREDIT, 1000⟩, ⟨.PLATFORM_REVENUE, none, .CREDIT, 501⟩] ∧
      Exact payment split ∧
        ∃ entries, computePaymentEntries payment split = .ok entries ∧ Apportioned payment split entries :=
  ⟨by decide +kernel, (computePaymentEntries_spec _ _ (by decide) (by decide)).2.2 (by
    simp [BadSplit])⟩

end Splitcore.Money
