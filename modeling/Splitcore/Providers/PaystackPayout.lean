import Splitcore.Money.Claimed
import Splitcore.Webhooks.Ingest

/-!
The payout provider over HTTP: what is made of what Paystack sends, and of what it does not.

The services go by five words for the status of a transfer. Which of them an answer gets is decided here,
and with it whether money is sent again.
-/

namespace Splitcore.Providers

open Interleaving Money Webhooks

/-! ### Responses -/

/-- What a `fetch` comes to. The body is read as JSON, and may be none. -/
inductive Fetched where
  | rejected (message : String)
  | response (status : ℕ) (statusText : String) (body : Except String Json)

/-- As a condition takes it; a number is text as a template literal writes it. -/
def truthyJson : Option Json → Bool
  | none | some .null => false
  | some (.bool b) => b
  | some (.num text) => text != "0"
  | some (.str s) => s != ""
  | some (.arr _) | some (.obj _) => true

def failure (message : String) : Err := .outside message

def json : Except String Json → Except Err Json
  | .ok value => .ok value
  | .error message => .error (failure message)

/-- Reading a property of `null` throws. -/
def property (name : String) : Json → Except Err (Option Json)
  | .null => .error .typeError
  | value => .ok (field name (some value))

/-- What the calls have in common: `data.data` of a response that is one. -/
def checked (what invalid : String) : Fetched → Except Err Json
  | .rejected message => .error (failure message)
  | .response status statusText body =>
    if status < 200 ∨ 300 ≤ status then do
      let errorData ← json body
      let message ← property "message" errorData
      let shown := if truthyJson message then (message.map Json.text).getD "" else statusText
      .error (failure (what ++ ": " ++ shown))
    else do
      let data ← json body
      let said ← property "status" data
      match field "data" (some data) with
      | some txn => if truthyJson said && truthyJson (some txn) then pure txn else .error (failure invalid)
      | none => .error (failure invalid)

/-! ### PaystackPayoutProvider -/

/-- Everything that is none of these resolves itself, or a webhook finishes it. -/
def mapTransferStatus : Option String → Transfer.Status
  | some "success" => .success
  | some "failed" => .failed
  | some "reversed" => .reversed
  | some "otp" | some "blocked" => .requires_action
  | _ => .pending

/-- `txn.status`, where it is a string. -/
def providerStatus (txn : Json) : Option String :=
  match field "status" (some txn) with
  | some (.str status) => some status
  | _ => none

/-- The reason is shown for a transfer that failed. -/
def failureReason (txn : Json) : Option String :=
  match providerStatus txn, field "failure_reason" (some txn) with
  | some "failed", some (.str reason) => some reason
  | _, _ => none

def initiateTransfer (fetched : Fetched) : Except Err Transfer := do
  let txn ← checked "Paystack transfer failed" "Invalid Paystack transfer response format" fetched
  pure ⟨mapTransferStatus (providerStatus txn), failureReason txn⟩

/-- A status that is known of a transfer that was made. -/
def verifiedStatus : Transfer.Status → TransferVerification.Status
  | .pending => .pending
  | .success => .success
  | .failed => .failed
  | .reversed => .reversed
  | .requires_action => .requires_action

/-- Only of a reference Paystack has never seen was no transfer made. -/
def verifyTransfer : Fetched → Except Err TransferVerification.Status
  | .response 404 _ _ => .ok .not_found
  | fetched => do
    let txn ← checked "Paystack transfer verification failed"
      "Invalid Paystack transfer verification response format" fetched
    pure (verifiedStatus (mapTransferStatus (providerStatus txn)))

/-! ### Which responses say what -/

variable {fetched : Fetched} {txn : Json} {what invalid : String} {transfer : Transfer}
  {status : TransferVerification.Status}

/-- The response is one, says that it is, and is about a transfer. -/
def About (fetched : Fetched) (txn : Json) : Prop :=
  ∃ code text data, fetched = .response code text (.ok data) ∧ 200 ≤ code ∧ code < 300 ∧
    truthyJson (field "status" (some data)) = true ∧ field "data" (some data) = some txn ∧ truthyJson (some txn) = true

/-- Paystack says this of the transfer. -/
def Reports (fetched : Fetched) (said : String) : Prop := ∃ txn, About fetched txn ∧ providerStatus txn = some said

/-- Paystack does not know the reference. -/
def Unknown (fetched : Fetched) : Prop := ∃ text body, fetched = .response 404 text body

lemma bind_eq_ok {ε α β : Type} {x : Except ε α} {f : α → Except ε β} {b : β} :
    (x >>= f) = .ok b ↔ ∃ a, x = .ok a ∧ f a = .ok b := by
  rcases x with e | a
  · exact iff_of_false (fun h => by cases h) fun ⟨_, h, _⟩ => by cases h
  · exact ⟨fun h => ⟨a, rfl, h⟩, fun ⟨_, h, hf⟩ => by cases h; exact hf⟩

lemma json_ok {body : Except String Json} {data : Json} : json body = .ok data ↔ body = .ok data := by
  rcases body with message | value
  · exact iff_of_false (fun h => by cases h) fun h => by cases h
  · exact ⟨fun h => by cases h; rfl, fun h => by cases h; rfl⟩

lemma property_ok {name : String} {data : Json} {value : Option Json} :
    property name data = .ok value ↔ data ≠ .null ∧ value = field name (some data) := by
  unfold property
  split
  · exact iff_of_false (fun h => by cases h) fun h => h.1 rfl
  · rename_i hnull
    exact ⟨fun h => ⟨fun heq => hnull heq, by cases h; rfl⟩, fun h => by rw [h.2]⟩

lemma checked_ok : checked what invalid fetched = .ok txn ↔ About fetched txn := by
  unfold checked
  split
  · exact iff_of_false (fun h => by cases h) fun ⟨_, _, _, h, _⟩ => by cases h
  split
  · rename_i hcode
    refine iff_of_false (fun h => ?_) fun ⟨_, _, _, h, hle, hlt, _⟩ => ?_
    · obtain ⟨errorData, -, h⟩ := bind_eq_ok.mp h
      obtain ⟨message, -, h⟩ := bind_eq_ok.mp h
      cases h
    · cases h
      omega
  · rename_i hcode
    rw [not_or, Nat.not_lt, Nat.not_le] at hcode
    constructor
    · intro h
      obtain ⟨data, hdata, h⟩ := bind_eq_ok.mp h
      obtain ⟨said, hsaid, h⟩ := bind_eq_ok.mp h
      obtain ⟨-, rfl⟩ := property_ok.mp hsaid
      split at h
      · rename_i found hfound
        split at h
        · rename_i htrue
          obtain ⟨hstatus, hdata'⟩ := (Bool.and_eq_true _ _).mp htrue
          cases h
          exact ⟨_, _, data, by rw [json_ok.mp hdata], hcode.1, hcode.2, hstatus, hfound, hdata'⟩
        · cases h
      · cases h
    · rintro ⟨_, _, data, heq, -, -, hstatus, hfound, htrue⟩
      cases heq
      have hnull : data ≠ .null := fun hnull => by rw [hnull] at hfound; cases hfound
      refine bind_eq_ok.mpr ⟨data, rfl, bind_eq_ok.mpr ⟨_, property_ok.mpr ⟨hnull, rfl⟩, ?_⟩⟩
      rw [hfound]
      dsimp only
      rw [if_pos (by rw [hstatus, htrue]; rfl)]
      rfl

lemma verifyTransfer_ok (hknown : ¬ Unknown fetched) : verifyTransfer fetched = .ok status ↔
    ∃ txn, About fetched txn ∧ status = verifiedStatus (mapTransferStatus (providerStatus txn)) := by
  unfold verifyTransfer
  split
  · exact absurd ⟨_, _, rfl⟩ hknown
  · rw [bind_eq_ok]
    refine exists_congr fun txn => ?_
    rw [checked_ok]
    exact and_congr_right fun _ => ⟨fun h => by cases h; rfl, fun h => by rw [h]; rfl⟩

/-! Only one word of Paystack's stands for each of these. -/

lemma mapTransferStatus_success {said : Option String} : mapTransferStatus said = .success ↔ said = some "success" := by
  unfold mapTransferStatus
  split <;> simp_all

lemma mapTransferStatus_failed {said : Option String} : mapTransferStatus said = .failed ↔ said = some "failed" := by
  unfold mapTransferStatus
  split <;> simp_all

lemma mapTransferStatus_reversed {said : Option String} :
    mapTransferStatus said = .reversed ↔ said = some "reversed" := by
  unfold mapTransferStatus
  split <;> simp_all

lemma unknown_verifies (h : Unknown fetched) : verifyTransfer fetched = .ok .not_found := by
  obtain ⟨text, body, rfl⟩ := h
  rfl

/-- **A transfer is verified as one that moved no money** exactly when Paystack does not know the reference, or
says that the transfer failed or was reversed. -/
theorem verified_movedNoMoney :
    (∃ status, verifyTransfer fetched = .ok status ∧ Knows.movedNoMoney status = true) ↔
      Unknown fetched ∨ Reports fetched "failed" ∨ Reports fetched "reversed" := by
  by_cases hknown : Unknown fetched
  · exact ⟨fun _ => .inl hknown, fun _ => ⟨_, unknown_verifies hknown, rfl⟩⟩
  constructor
  · rintro ⟨status, hstatus, hmoved⟩
    obtain ⟨txn, habout, rfl⟩ := (verifyTransfer_ok hknown).mp hstatus
    rcases hmapped : mapTransferStatus (providerStatus txn) with _ | _ | _ | _ | _ <;> rw [hmapped] at hmoved
    · cases hmoved
    · cases hmoved
    · exact .inr (.inl ⟨txn, habout, mapTransferStatus_failed.mp hmapped⟩)
    · exact .inr (.inr ⟨txn, habout, mapTransferStatus_reversed.mp hmapped⟩)
    · cases hmoved
  · rintro (hunknown | ⟨txn, habout, hsaid⟩ | ⟨txn, habout, hsaid⟩)
    · exact absurd hunknown hknown
    · exact ⟨_, (verifyTransfer_ok hknown).mpr ⟨txn, habout, rfl⟩, by rw [mapTransferStatus_failed.mpr hsaid]; rfl⟩
    · exact ⟨_, (verifyTransfer_ok hknown).mpr ⟨txn, habout, rfl⟩, by rw [mapTransferStatus_reversed.mpr hsaid]; rfl⟩

lemma verified_success : verifyTransfer fetched = .ok .success ↔ Reports fetched "success" := by
  by_cases hknown : Unknown fetched
  · rw [unknown_verifies hknown]
    obtain ⟨text, body, rfl⟩ := hknown
    refine iff_of_false (fun h => by cases h) ?_
    rintro ⟨_, ⟨_, _, _, heq, hle, hlt, -⟩, -⟩
    cases heq
    omega
  · rw [verifyTransfer_ok hknown]
    refine exists_congr fun txn => and_congr_right fun _ => ?_
    rw [← mapTransferStatus_success]
    rcases mapTransferStatus (providerStatus txn) with _ | _ | _ | _ | _ <;> simp [verifiedStatus]

lemma initiated_success : (∃ transfer, initiateTransfer fetched = .ok transfer ∧ transfer.status = .success) ↔
    Reports fetched "success" := by
  constructor
  · rintro ⟨transfer, h, hsuccess⟩
    obtain ⟨txn, hchecked, h⟩ := bind_eq_ok.mp h
    cases h
    exact ⟨txn, checked_ok.mp hchecked, mapTransferStatus_success.mp hsuccess⟩
  · rintro ⟨txn, habout, hsaid⟩
    exact ⟨_, bind_eq_ok.mpr ⟨txn, checked_ok.mpr habout, rfl⟩, mapTransferStatus_success.mpr hsaid⟩

end Splitcore.Providers
