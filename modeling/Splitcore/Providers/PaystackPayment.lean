import Splitcore.Providers.PaystackPayout

/-!
The payment provider over HTTP: which responses confirm a charge, and for how much.
-/

namespace Splitcore.Providers

open Interleaving Money Webhooks

/-! ### PaystackProvider -/

def mapChargeStatus : Option String → PaymentVerification.Status
  | some "success" => .success
  | some "failed" => .failed
  | some "abandoned" => .abandoned
  | _ => .pending

/-- What `verifyPayment` hands on: amount and currency as Paystack sent them, whatever they are. -/
structure Verified where
  status : PaymentVerification.Status
  amountKobo : Option Json
  currency : Option Json

def verifyPayment (fetched : Fetched) : Except Err Verified := do
  let txn ← checked "Paystack verification failed" "Invalid Paystack verification response format" fetched
  pure ⟨mapChargeStatus (providerStatus txn), field "amount" (some txn), field "currency" (some txn)⟩

/-- What the settlement sees of it. Amount and currency are looked at for a charge that succeeded only; the
amount is then an integer and the currency text, or nothing. -/
structure Stands (verified : Verified) (verification : PaymentVerification) : Prop where
  status : verification.status = verified.status
  amountKobo : verified.status = .success → verified.amountKobo = some (.num (toString verification.amountKobo))
  currency : verified.status = .success → match verification.currency with
    | some currency => verified.currency = some (.str currency)
    | none => truthyJson verified.currency = false

/-- The answer is made of the response. -/
def Verifies (fetched : Fetched) (answer : Except Err PaymentVerification) : Prop := match verifyPayment fetched with
  | .error e => answer = .error e
  | .ok verified => ∃ verification, answer = .ok verification ∧ Stands verified verification

/-! ### Which responses confirm a charge -/

/-- Paystack says that this amount was charged, and in no other currency. -/
def Charges (fetched : Fetched) (amountKobo : ℤ) : Prop := ∃ txn, About fetched txn ∧
  providerStatus txn = some "success" ∧ field "amount" (some txn) = some (.num (toString amountKobo)) ∧
  (truthyJson (field "currency" (some txn)) = false ∨ field "currency" (some txn) = some (.str SETTLEMENT_CURRENCY))

/-- The settlement finds nothing wrong with the currency. -/
def sameCurrency (verification : PaymentVerification) : Bool :=
  ((truthy verification.currency).filter (· ≠ SETTLEMENT_CURRENCY)).isNone

variable {fetched : Fetched} {verification : PaymentVerification} {payment : PaymentTransaction}

lemma mapChargeStatus_success {said : Option String} : mapChargeStatus said = .success ↔ said = some "success" := by
  unfold mapChargeStatus
  split <;> simp_all

lemma integrityError_none : integrityError payment verification = none ↔
    verification.amountKobo = payment.grossAmountKobo ∧ sameCurrency verification = true := by
  unfold integrityError sameCurrency
  split
  · rename_i hne
    exact iff_of_false (fun h => by cases h) fun h => hne h.1
  · rename_i heq
    rw [not_not] at heq
    rcases (truthy verification.currency).filter (· ≠ SETTLEMENT_CURRENCY) with _ | currency
    · exact iff_of_true rfl ⟨heq, rfl⟩
    · exact iff_of_false (fun h => by cases h) fun h => by cases h.2

/-- A currency that is not held against the charge is none, or the settlement's. -/
lemma sameCurrency_iff : sameCurrency verification = true ↔
    verification.currency = none ∨ verification.currency = some "" ∨
      verification.currency = some SETTLEMENT_CURRENCY := by
  unfold sameCurrency truthy
  rcases verification.currency with _ | currency
  · simp
  by_cases hempty : currency = ""
  · simp [hempty]
  by_cases hcurrency : currency = SETTLEMENT_CURRENCY
  · exact iff_of_true (by rw [hcurrency]; decide) (.inr (.inr (by rw [hcurrency])))
  · simp [hempty, hcurrency, Option.filter]

/-- **A verification that may settle a payment is of a response that charges its amount.** -/
theorem charges_of_verified (h : Verifies fetched (.ok verification)) (hsuccess : verification.status = .success)
    (hcurrency : sameCurrency verification = true) : Charges fetched verification.amountKobo := by
  unfold Verifies at h
  rcases hverified : verifyPayment fetched with e | verified
  · rw [hverified] at h
    cases h
  rw [hverified] at h
  obtain ⟨_, heq, hstands⟩ := h
  cases heq
  obtain ⟨txn, hchecked, hpure⟩ := bind_eq_ok.mp hverified
  cases hpure
  have hstatus : mapChargeStatus (providerStatus txn) = .success := hstands.status.symm.trans hsuccess
  refine ⟨txn, checked_ok.mp hchecked, mapChargeStatus_success.mp hstatus, hstands.amountKobo hstatus, ?_⟩
  have hstated := hstands.currency hstatus
  rcases sameCurrency_iff.mp hcurrency with hnone | hempty | hsettled
  · rw [hnone] at hstated
    exact .inl hstated
  · rw [hempty] at hstated
    exact .inl (by rw [show field "currency" (some txn) = _ from hstated]; rfl)
  · rw [hsettled] at hstated
    exact .inr hstated

end Splitcore.Providers
