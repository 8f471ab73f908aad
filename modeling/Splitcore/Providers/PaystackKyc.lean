import Splitcore.Providers.PaystackPayout

/-!
The identity provider over HTTP: which responses name an account's holder, and which verify a document.

A check that could not be made is neither passed nor failed.
-/

namespace Splitcore.Providers

open Webhooks

/-! ### Responses -/

/-- Where the body is no JSON, there is none. -/
def readBody : Except String Json → Option Json
  | .ok value => some value
  | .error _ => none

/-- `body?.message ?? response.statusText` -/
def shownMessage (statusText : String) (body : Option Json) : Json :=
  (defined (field "message" body)).getD (.str statusText)

/-- `response.ok && body?.status` -/
def accepted (status : ℕ) (body : Option Json) : Bool :=
  decide (200 ≤ status ∧ status < 300) && truthyJson (field "status" body)

def isTrue : Option Json → Bool
  | some (.bool b) => b
  | _ => false

/-- Text is stored, and nothing else can be: what would store another value throws. -/
def noText : Err := failure "Invalid value provided."

namespace PaystackKyc

/-! ### PaystackKycProvider -/

def resolveAccount (accountNumber bankCode : String) : Fetched → Except Err ResolvedAccount
  | .rejected message => .error (failure message)
  | .response status statusText body =>
    let data := field "data" (readBody body)
    let accountName := field "account_name" data
    if !(accepted status (readBody body) && truthyJson accountName) then
      .error (.accountResolution (Json.text (shownMessage statusText (readBody body))))
    else match accountName with
      | some (.str accountName) =>
        .ok ⟨((defined (field "account_number" data)).map Json.text).getD accountNumber, bankCode, accountName⟩
      | _ => .error noText

def verifyIdentity : Fetched → Except Err IdentityCheckResult
  | .rejected _ => .ok ⟨.unavailable, some "The identity verification provider could not be reached."⟩
  | .response status statusText body =>
    if status = 404 then .ok ⟨.unavailable, some
      ("Identity verification is not enabled on the connected Paystack account. It requires " ++
        "the CAC-registered \"Registered Business\" tier with identity verification completed.")⟩
    else
      let data := field "data" (readBody body)
      if !accepted status (readBody body) then match shownMessage statusText (readBody body) with
        | .str reason => .ok ⟨.failed, some reason⟩
        | _ => .error noText
      else if !(isTrue (field "first_name" data) && isTrue (field "last_name" data)) then
        .ok ⟨.failed, some "The name on the identity document does not match the name provided."⟩
      else if isTrue (field "is_blacklisted" data) then
        .ok ⟨.failed, some "The identity document is blacklisted."⟩
      else .ok ⟨.verified, none⟩

/-! ### Which responses say what -/

/-- Paystack gives this as the name of the account's holder. -/
def Names (fetched : Fetched) (name : String) : Prop :=
  ∃ data, About fetched data ∧ field "account_name" (some data) = some (.str name) ∧ name ≠ ""

/-- Paystack says that both names are those on the document, and nothing against it. -/
def Matches (fetched : Fetched) : Prop :=
  ∃ data, About fetched data ∧ field "first_name" (some data) = some (.bool true) ∧
    field "last_name" (some data) = some (.bool true) ∧ field "is_blacklisted" (some data) ≠ some (.bool true)

/-- The check could not be made: there was no response, or identities cannot be verified with the account. -/
def Unreached (fetched : Fetched) : Prop := (∃ message, fetched = .rejected message) ∨ Unknown fetched

variable {fetched : Fetched} {accountNumber bankCode name : String} {account : ResolvedAccount}
  {result : IdentityCheckResult} {status : ℕ} {statusText : String} {body : Except String Json} {value : Option Json}

lemma isTrue_iff : isTrue value = true ↔ value = some (.bool true) := by
  unfold isTrue
  split <;> simp_all

/-- What is accepted is about its data, if that has a field that is there. -/
lemma about_iff {data : Json} (hdata : ∃ fields, data = .obj fields) :
    About (.response status statusText body) data ↔
      accepted status (readBody body) = true ∧ field "data" (readBody body) = some data := by
  have htruthy : truthyJson (some data) = true := by
    obtain ⟨fields, rfl⟩ := hdata
    rfl
  unfold accepted
  rw [Bool.and_eq_true, decide_eq_true_iff]
  constructor
  · rintro ⟨code, text, value, heq, hle, hlt, hstatus, hfound, -⟩
    cases heq
    exact ⟨⟨⟨hle, hlt⟩, hstatus⟩, hfound⟩
  · rintro ⟨⟨⟨hle, hlt⟩, hstatus⟩, hfound⟩
    rcases body with _ | value
    · cases hstatus
    · exact ⟨status, statusText, value, rfl, hle, hlt, hstatus, hfound, htruthy⟩

/-- A field is found in an object. -/
lemma of_field {key : String} {data : Option Json} {found : Json} (h : field key data = some found) :
    ∃ fields, data = some (.obj fields) := by
  unfold field at h
  split at h
  · exact ⟨_, rfl⟩
  · cases h

/-- **An account is resolved by a response that names its holder.** -/
theorem names_of_resolved (h : resolveAccount accountNumber bankCode fetched = .ok account) :
    Names fetched account.accountName := by
  unfold resolveAccount at h
  split at h
  · cases h
  rename_i status statusText body
  dsimp only at h
  split at h
  · cases h
  rename_i haccepted
  rw [Bool.not_eq_true', Bool.not_eq_false, Bool.and_eq_true] at haccepted
  split at h
  · rename_i found hname
    cases h
    obtain ⟨fields, hdata⟩ := of_field hname
    rw [hdata] at hname
    refine ⟨.obj fields, (about_iff ⟨fields, rfl⟩).mpr ⟨haccepted.1, hdata⟩, hname, ?_⟩
    rintro rfl
    rw [hdata, hname] at haccepted
    exact absurd haccepted.2 (by decide)
  · cases h

/-- What a response that is there and not a 404 comes to. -/
lemma verifyIdentity_response (hstatus : status ≠ 404) :
    verifyIdentity (.response status statusText body) = .ok result →
      result.outcome ≠ .unavailable ∧
        (result.outcome = .verified ↔ accepted status (readBody body) = true ∧
          isTrue (field "first_name" (field "data" (readBody body))) = true ∧
          isTrue (field "last_name" (field "data" (readBody body))) = true ∧
          isTrue (field "is_blacklisted" (field "data" (readBody body))) = false) := by
  intro h
  simp only [verifyIdentity, if_neg hstatus] at h
  split at h
  · rename_i hrefused
    rw [Bool.not_eq_true'] at hrefused
    split at h
    · cases h
      exact ⟨nofun, iff_of_false nofun fun h => by rw [hrefused] at h; cases h.1⟩
    · cases h
  rename_i haccepted
  rw [Bool.not_eq_true', Bool.not_eq_false] at haccepted
  split at h
  · rename_i hnames
    cases h
    refine ⟨nofun, iff_of_false nofun fun h => ?_⟩
    rw [h.2.1, h.2.2.1] at hnames
    cases hnames
  rename_i hnames
  rw [Bool.not_eq_true', Bool.not_eq_false, Bool.and_eq_true] at hnames
  split at h
  · rename_i hblack
    cases h
    exact ⟨nofun, iff_of_false nofun fun h => by rw [hblack] at h; cases h.2.2.2⟩
  · rename_i hblack
    cases h
    exact ⟨nofun, iff_of_true rfl ⟨haccepted, hnames.1, hnames.2, by simpa using hblack⟩⟩

lemma verifyIdentity_unreached (h : Unreached fetched) :
    ∃ reason, verifyIdentity fetched = .ok ⟨.unavailable, some reason⟩ := by
  rcases h with ⟨message, rfl⟩ | ⟨text, body, rfl⟩
  · exact ⟨_, rfl⟩
  · exact ⟨_, rfl⟩

/-- Either the check was made, or it could not be. -/
lemma reached (h : ¬Unreached fetched) : ∃ status statusText body, status ≠ 404 ∧
    fetched = .response status statusText body := by
  rcases fetched with message | ⟨status, statusText, body⟩
  · exact absurd (.inl ⟨message, rfl⟩) h
  · refine ⟨status, statusText, body, fun h404 => h (.inr ⟨statusText, body, ?_⟩), rfl⟩
    rw [h404]

/-- **Nobody is in review for anything but a check that could not be made.** -/
theorem verifyIdentity_unavailable (h : verifyIdentity fetched = .ok result) :
    result.outcome = .unavailable ↔ Unreached fetched := by
  by_cases hreached : Unreached fetched
  · obtain ⟨reason, heq⟩ := verifyIdentity_unreached hreached
    cases heq.symm.trans h
    exact iff_of_true rfl hreached
  · obtain ⟨status, statusText, body, hstatus, rfl⟩ := reached hreached
    exact iff_of_false (verifyIdentity_response hstatus h).1 hreached

/-- **A document is verified by a response that says so.** -/
theorem verifyIdentity_verified (h : verifyIdentity fetched = .ok result) :
    result.outcome = .verified ↔ Matches fetched := by
  by_cases hreached : Unreached fetched
  · obtain ⟨reason, heq⟩ := verifyIdentity_unreached hreached
    cases heq.symm.trans h
    refine iff_of_false nofun ?_
    rintro ⟨data, ⟨code, text, value, heq, hle, hlt, -⟩, -⟩
    rcases hreached with ⟨message, rfl⟩ | ⟨text', body, rfl⟩
    · cases heq
    · cases heq
      omega
  obtain ⟨status, statusText, body, hstatus, rfl⟩ := reached hreached
  rw [(verifyIdentity_response hstatus h).2]
  constructor
  · rintro ⟨haccepted, hfirst, hlast, hblack⟩
    rw [isTrue_iff] at hfirst hlast
    obtain ⟨fields, hdata⟩ := of_field hfirst
    rw [hdata] at hfirst hlast hblack
    refine ⟨.obj fields, (about_iff ⟨fields, rfl⟩).mpr ⟨haccepted, hdata⟩, hfirst, hlast, fun hblack' => ?_⟩
    rw [hblack'] at hblack
    cases hblack
  · rintro ⟨data, habout, hfirst, hlast, hblack⟩
    obtain ⟨fields, hdata⟩ := of_field hfirst
    cases hdata
    obtain ⟨haccepted, hfound⟩ := (about_iff ⟨fields, rfl⟩).mp habout
    rw [hfound, isTrue_iff, isTrue_iff, ← Bool.not_eq_true, isTrue_iff]
    exact ⟨haccepted, hfirst, hlast, hblack⟩

end PaystackKyc

end Splitcore.Providers
