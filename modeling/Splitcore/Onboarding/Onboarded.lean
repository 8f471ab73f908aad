import Splitcore.Interleaving.Complete
import Splitcore.Money.Services
import Splitcore.Onboarding.EntertainerFlow

/-!
Complete calls to `KycService`, one after another, and what the record says of them.

Each column is about the past: a resolved name since the bank gave it, a confirmation since that
name was agreed to, and both only as long as the account is the same.
-/

namespace Splitcore.Onboarding

open Relational Interleaving

/-! ### Calls that ran to their end -/

/-- A call about one entertainer. -/
inductive KycOperation where
  | submitBankDetails (input : BankDetails)
  | resolveAccount
  | confirmAccount (confirmedName : String)
  | verifyIdentity (documentType : IdentityDocumentType) (documentNumber : String)
  | decideReview (decision : ReviewDecision) (reason : String)

def KycOperation.program (toUpperCase : String → String) (id : Uuid) :
    KycOperation → Prog App KycStatusView
  | .submitBankDetails input => Onboarding.submitBankDetails toUpperCase id input
  | .resolveAccount => Onboarding.resolveAccount id
  | .confirmAccount confirmedName => Onboarding.confirmAccount toUpperCase id confirmedName
  | .verifyIdentity documentType documentNumber => Onboarding.verifyIdentity id documentType documentNumber
  | .decideReview decision reason => Onboarding.decideReview id decision reason

/-- What a statement can fail with besides what it throws itself. -/
def databaseFault : Err → Prop
  | .outside _ => True
  | _ => False

abbrev KycDone := Done App KycOperation KycStatusView

/-- The sequences of complete calls about the entertainer. -/
abbrev KycHistory (toUpperCase : String → String) (id : Uuid) : Db → List KycDone → Db → Prop :=
  History databaseFault (KycOperation.program toUpperCase id)

def stored (id : Uuid) (s : Db) : Option Entertainer := s.entertainers.find (·.id == id)

def accountDetails (e : Entertainer) : Option String × Option String := (e.accountNumber, e.bankCode)

variable {toUpperCase : String → String} {id : Uuid} {d : KycDone} {e : Entertainer}

/-! ### What a call was -/

def Succeeded (d : KycDone) : Prop := ∃ view, d.result = .ok view

def Submitted (d : KycDone) : Prop := Succeeded d ∧ ∃ input, d.label = .submitBankDetails input

/-- The bank gave the name. -/
def Resolved (name : String) (d : KycDone) : Prop :=
  Succeeded d ∧ d.label = .resolveAccount ∧ ∃ accountNumber bankCode account,
    .answered (.resolveAccount accountNumber bankCode) (.ok account) ∈ d.log ∧ account.accountName = name

/-- The bank rejected the account, and that was stored. -/
def Rejected (d : KycDone) : Prop :=
  d.label = .resolveAccount ∧ (∃ message e, d.result = .error (.accountUnresolved message e)) ∧
    ∃ accountNumber bankCode message,
      .answered (.resolveAccount accountNumber bankCode) (.error (.accountResolution message)) ∈ d.log

def ConfirmedAs (name : String) (d : KycDone) : Prop := Succeeded d ∧ d.label = .confirmAccount name

def IdentityVerified (d : KycDone) : Prop :=
  Succeeded d ∧ (∃ documentType documentNumber, d.label = .verifyIdentity documentType documentNumber) ∧
    ∃ params result, .answered (.verifyIdentity params) (.ok result) ∈ d.log ∧ result.outcome = .verified

/-- A person approved what was in review. -/
def Approved (id : Uuid) (d : KycDone) : Prop :=
  Succeeded d ∧ (∃ reason, d.label = .decideReview .APPROVE reason) ∧
    ∃ e, stored id d.before = some e ∧ e.kycStatus = .REVIEW

/-- The stored account number and bank code are as they were. -/
def SameAccount (id : Uuid) (d : KycDone) : Prop :=
  (stored id d.after).map accountDetails = (stored id d.before).map accountDetails

/-! ### What has happened since -/

/-- The bank gave the name, for the account as it is; it was not asked again with success. -/
def ResolvedSince (id : Uuid) (name : String) : List KycDone → Prop :=
  Since (fun _ d => Resolved name d ∧ SameAccount id d) fun d =>
    SameAccount id d ∧ ∀ name, ¬ Resolved name d

/-- The name the bank gave was confirmed, and no other was given since. -/
def ConfirmedSince (toUpperCase : String → String) (id : Uuid) : List KycDone → Prop :=
  Since (fun ds d => ∃ name given, ResolvedSince id name ds ∧ ConfirmedAs given d ∧
      normalizeName toUpperCase given = normalizeName toUpperCase name ∧ SameAccount id d)
    fun d => SameAccount id d ∧ ∀ name, ¬ Resolved name d

/-- Then the identity was verified, or a review approved; and nothing went back on it. -/
def Onboarded (toUpperCase : String → String) (id : Uuid) : List KycDone → Prop :=
  Since (fun ds d => ConfirmedSince toUpperCase id ds ∧ (IdentityVerified d ∨ Approved id d) ∧
      SameAccount id d)
    fun d => SameAccount id d ∧ ¬ Submitted d ∧ (∀ name, ¬ Resolved name d) ∧ ¬ Rejected d ∧
      ∀ name, ¬ ConfirmedAs name d

/-! ### What a complete call does -/

/-- What a call made of the stored entertainer. -/
inductive Moves (toUpperCase : String → String) (id : Uuid) (d : KycDone) : Prop
  | nothing (hsame : stored id d.after = stored id d.before) (hfailed : ¬ Succeeded d)
      (hnot : ¬ Rejected d)
  | submitted (e : Entertainer) (input : BankDetails) (bank : Bank) (now : Time)
      (hlabel : d.label = .submitBankDetails input) (he : stored id d.before = some e)
      (hafter : stored id d.after = some (bankDetailsCaptured bank input.accountNumber
        (decide (e.accountNumber ≠ some input.accountNumber ∨ e.bankCode ≠ some bank.code)) now e))
  | resolved (e : Entertainer) (name : String) (now : Time) (hresolved : Resolved name d)
      (he : stored id d.before = some e) (hnumber : truthy e.accountNumber ≠ none)
      (hcode : truthy e.bankCode ≠ none) (hafter : stored id d.after = some (accountResolved name now e))
  | rejected (e : Entertainer) (message : String) (hlabel : d.label = .resolveAccount)
      (hfailed : ¬ Succeeded d) (he : stored id d.before = some e)
      (hafter : stored id d.after =
        some { e with kycStatus := .FAILED, kycFailureReason := some message })
  | confirmed (e : Entertainer) (given name : String) (now : Time) (hconfirmed : ConfirmedAs given d)
      (he : stored id d.before = some e) (hname : truthy e.resolvedAccountName = some name)
      (hmatches : normalizeName toUpperCase given = normalizeName toUpperCase name)
      (hafter : stored id d.after = some { e with
        accountConfirmedAt := some now, kycStatus := .PENDING, kycFailureReason := none })
  | checked (e : Entertainer) (documentType : IdentityDocumentType) (documentNumber : String)
      (result : IdentityCheckResult) (now : Time)
      (hlabel : d.label = .verifyIdentity documentType documentNumber)
      (hverified : result.outcome = .verified → IdentityVerified d)
      (he : stored id d.before = some e) (hconfirmed : e.accountConfirmedAt ≠ none)
      (hafter : stored id d.after = some (identityChecked documentType result now e))
  | decided (e : Entertainer) (decision : ReviewDecision) (reason : String) (now : Time)
      (hlabel : d.label = .decideReview decision reason)
      (happroved : decision = .APPROVE → Approved id d ∧ e.accountConfirmedAt ≠ none)
      (he : stored id d.before = some e)
      (hafter : stored id d.after = some (reviewDecided decision reason now e))

section Calls

variable {s s' : Db} {ds : List (Did App)} {res : Except Err KycStatusView} {err : Err}

lemma ends_find {r : Except Err Entertainer} (h : Ends databaseFault (find id) s ds r s') :
    s' = s ∧ Silent ds ∧ ((∃ e, r = .ok e ∧ stored id s = some e) ∨
      ∃ err, r = .error err ∧ ∀ message e, err ≠ .accountUnresolved message e) := by
  rcases ends_bind h with ⟨err, rfl, hq⟩ | ⟨found, ds₁, ds₂, s₁, rfl, hq, h⟩
  · obtain ⟨rfl, hsilent, hres | ⟨err', hfault, hres⟩⟩ := ends_query hq
    · cases hres
    · cases hres
      exact ⟨rfl, hsilent, .inr ⟨err, rfl, fun _ _ heq => by rw [heq] at hfault; exact hfault⟩⟩
  · obtain ⟨rfl, hsilent, hres | ⟨err', -, hres⟩⟩ := ends_query hq
    · cases hres
      rcases he : s₁.entertainers.find (·.id == id) with _ | e <;> rw [he] at h
      · obtain ⟨rfl, rfl, rfl⟩ := ends_raise h
        exact ⟨rfl, by simpa using hsilent, .inr ⟨_, rfl, fun _ _ heq => by cases heq⟩⟩
      · obtain ⟨rfl, rfl, rfl⟩ := ends_ret h
        exact ⟨rfl, by simpa using hsilent, .inl ⟨e, rfl, he⟩⟩
    · cases hres

/-- A call finds the entertainer and goes on, or has thrown and done nothing. -/
lemma ends_found {β : Type} {k : Entertainer → Prog App β} {r : Except Err β}
    (h : Ends databaseFault (find id >>= k) s ds r s') :
    (s' = s ∧ Silent ds ∧ ∃ err, r = .error err ∧ ∀ message e, err ≠ .accountUnresolved message e) ∨
    ∃ e ds₁ ds₂, ds = ds₁ ++ ds₂ ∧ Silent ds₁ ∧ stored id s = some e ∧
      Ends databaseFault (k e) s ds₂ r s' := by
  rcases ends_bind h with ⟨err, rfl, hf⟩ | ⟨e, ds₁, ds₂, s₁, rfl, hf, hk⟩
  · obtain ⟨rfl, hsilent, ⟨e, hres, -⟩ | ⟨err', hres, hne⟩⟩ := ends_find hf
    · cases hres
    · cases hres
      exact .inl ⟨rfl, hsilent, err, rfl, hne⟩
  · obtain ⟨rfl, hsilent, ⟨e', hres, he⟩ | ⟨err', hres, -⟩⟩ := ends_find hf
    · cases hres
      exact .inr ⟨e, ds₁, ds₂, rfl, hsilent, he, hk⟩
    · cases hres

lemma ends_notSuspended {β : Type} {k : Unit → Prog App β} {r : Except Err β}
    (h : Ends databaseFault (assertNotSuspended e >>= k) s ds r s') :
    (s' = s ∧ ds = [] ∧ ∃ message, r = .error (.conflict message)) ∨
      Ends databaseFault (k ()) s ds r s' := by
  unfold assertNotSuspended at h
  split at h
  · obtain ⟨rfl, rfl, rfl⟩ := ends_raise h
    exact .inl ⟨rfl, rfl, _, rfl⟩
  · exact .inr h

/-- A statement that updates the entertainer did so, or left the store and threw. -/
lemma ends_updated {β : Type} {site : Site} {f : Time → Entertainer → Entertainer} {k : Entertainer → Prog App β}
    {r : Except Err β} (he : stored id s = some e) (hid : ∀ t e, (f t e).id = e.id)
    (h : Ends databaseFault (statement site (do
      let now ← Tx.now
      updateEntertainer id (f now)) >>= k) s ds r s') :
    (s' = s ∧ ∃ err, r = .error err) ∨ ∃ now s₁ row ds', stored id s₁ = some (f now e) ∧
      Ends databaseFault (k row) s₁ ds' r s' := by
  rcases ends_bind h with ⟨err, rfl, hc⟩ | ⟨row, ds₁, ds₂, s₁, rfl, hc, hk⟩
  · rcases (ends_command hc).2 with ⟨w, a, -, hres⟩ | ⟨rfl, -⟩
    · cases hres
    · exact .inl ⟨rfl, err, rfl⟩
  · rcases (ends_command hc).2 with ⟨w, a, hm, hres⟩ | ⟨rfl, err, hres, -⟩
    · rw [Tx.run_now] at hm
      obtain ⟨e', he', -, hfind⟩ := updateEntertainer_run hm (hid _)
      obtain rfl : e = e' := Option.some.inj (he.symm.trans he')
      exact .inr ⟨w.now, s₁, row, ds₂, (hfind id).trans (if_pos rfl), hk⟩
    · cases hres

/-- What an update of an entertainer throws. -/
lemma updateEntertainer_error {f : Entertainer → Entertainer} {w : Input}
    (h : (updateEntertainer id f).run w s = .error err) :
    err = .uniqueViolation ∨ err = .recordNotFound ∨ err = .checkViolation :=
  Model.updateOne_error (Tx.run_error.mp h)

theorem ends_submitBankDetails {input : BankDetails}
    (h : Ends databaseFault (submitBankDetails toUpperCase id input) s ds res s') :
    (s' = s ∧ ∃ err, res = .error err) ∨ ∃ e bank now view, stored id s = some e ∧
      stored id s' = some (bankDetailsCaptured bank input.accountNumber
        (decide (e.accountNumber ≠ some input.accountNumber ∨ e.bankCode ≠ some bank.code)) now e) ∧
      res = .ok view := by
  rcases ends_found h with ⟨rfl, -, err, rfl, -⟩ | ⟨e, _, ds₁, -, -, he, h₁⟩
  · exact .inl ⟨rfl, err, rfl⟩
  rcases ends_notSuspended h₁ with ⟨rfl, -, message, rfl⟩ | h₂
  · exact .inl ⟨rfl, _, rfl⟩
  rcases ends_bind h₂ with ⟨err, rfl, hlist⟩ | ⟨banks, _, ds₂, s₁, -, hlist, h₃⟩
  · exact .inl ⟨(ends_request hlist).1, err, rfl⟩
  obtain ⟨rfl, -⟩ := ends_request hlist
  rcases ends_bind h₃ with ⟨err, rfl, hbank⟩ | ⟨bank, _, ds₃, s₂, -, hbank, h₄⟩
  · exact .inl ⟨(ends_ofExcept hbank).2.2, err, rfl⟩
  obtain ⟨-, -, rfl⟩ := ends_ofExcept hbank
  rcases ends_updated he (fun t e => by unfold bankDetailsCaptured; split <;> rfl) h₄ with
    ⟨rfl, hfailed⟩ | ⟨now, s₃, row, _, hs, hret⟩
  · exact .inl ⟨rfl, hfailed⟩
  · obtain ⟨-, rfl, rfl⟩ := ends_ret hret
    exact .inr ⟨e, bank, now, _, he, hs, rfl⟩

/-- The bank is asked; what it gave is stored, or nothing was. -/
lemma ends_resolveWithBank {accountNumber bankCode : String} {r : Except Err Entertainer}
    (he : stored id s = some e)
    (h : Ends databaseFault (resolveWithBank id accountNumber bankCode) s ds r s') :
    ∃ a ds', ds = .asked (.resolveAccount accountNumber bankCode) ::
        .answered (.resolveAccount accountNumber bankCode) a :: ds' ∧ Silent ds' ∧
      ((∃ err, a = .error err ∧ r = .error err ∧ s' = s) ∨
        ∃ account, a = .ok account ∧ ((s' = s ∧ ∃ err, r = .error err ∧ ∀ message, err ≠ .accountResolution message) ∨
          ∃ now row, stored id s' = some (accountResolved account.accountName now e) ∧ r = .ok row)) := by
  rcases ends_bind h with ⟨err, rfl, hq⟩ | ⟨account, ds₁, ds₂, s₁, rfl, hq, hc⟩
  · obtain ⟨rfl, rfl⟩ := ends_request hq
    exact ⟨_, [], rfl, by simp [Silent], .inl ⟨err, rfl, rfl, rfl⟩⟩
  · obtain ⟨rfl, rfl⟩ := ends_request hq
    obtain ⟨hsilent, ⟨w, row, hm, rfl⟩ | ⟨rfl, err, rfl, herr⟩⟩ := ends_command hc
    · rw [Tx.run_now] at hm
      obtain ⟨e', he', -, hfind⟩ := updateEntertainer_run hm fun _ => rfl
      obtain rfl : e = e' := Option.some.inj (he.symm.trans he')
      exact ⟨_, ds₂, rfl, hsilent, .inr ⟨account, rfl, .inr ⟨w.now, row, (hfind id).trans (if_pos rfl), rfl⟩⟩⟩
    · refine ⟨_, ds₂, rfl, hsilent, .inr ⟨account, rfl, .inl ⟨rfl, err, rfl, fun message heq => ?_⟩⟩⟩
      rcases herr with hfault | ⟨w, hm⟩
      · rw [heq] at hfault; exact hfault
      · rw [Tx.run_now] at hm
        rcases updateEntertainer_error hm with rfl | rfl | rfl <;> cases heq

/-- The bank rejected the account in this log. -/
def HeardRejection (ds : List (Did App)) : Prop := ∃ accountNumber bankCode message,
  .answered (.resolveAccount accountNumber bankCode) (.error (.accountResolution message)) ∈ ds

lemma not_heardRejection {ds : List (Did App)} (h : Silent ds) : ¬ HeardRejection ds :=
  fun ⟨_, _, _, hmem⟩ => h _ _ hmem

lemma heardRejection_asked {ds₁ ds₂ ds₃ : List (Did App)} {accountNumber bankCode : String}
    {a : Except Err ResolvedAccount} (h₁ : Silent ds₁) (h₂ : Silent ds₂) (h₃ : Silent ds₃)
    (h : HeardRejection (ds₁ ++ (.asked (.resolveAccount accountNumber bankCode) ::
      .answered (.resolveAccount accountNumber bankCode) a :: ds₂ ++ ds₃))) :
    ∃ message, a = .error (.accountResolution message) := by
  obtain ⟨n, c, message, hmem⟩ := h
  simp only [List.mem_append, List.mem_cons, reduceCtorEq, false_or] at hmem
  rcases hmem with hmem | (heq | hmem) | hmem
  · exact absurd hmem (h₁ _ _)
  · cases heq; exact ⟨message, rfl⟩
  · exact absurd hmem (h₂ _ _)
  · exact absurd hmem (h₃ _ _)

theorem ends_resolveAccount (h : Ends databaseFault (resolveAccount id) s ds res s') :
    (s' = s ∧ (∃ err, res = .error err) ∧
      ¬ ((∃ message e, res = .error (.accountUnresolved message e)) ∧ HeardRejection ds)) ∨
    (∃ e accountNumber bankCode account now view, stored id s = some e ∧
      truthy e.accountNumber ≠ none ∧ truthy e.bankCode ≠ none ∧
      .answered (.resolveAccount accountNumber bankCode) (.ok account) ∈ ds ∧ ¬ HeardRejection ds ∧
      stored id s' = some (accountResolved account.accountName now e) ∧ res = .ok view) ∨
    ∃ e message err, stored id s = some e ∧
      stored id s' = some { e with kycStatus := .FAILED, kycFailureReason := some message } ∧
      res = .error err := by
  rcases ends_found h with ⟨rfl, hsilent, err, rfl, -⟩ | ⟨e, ds₀, ds₁, rfl, hfind, he, h₁⟩
  · exact .inl ⟨rfl, ⟨err, rfl⟩, fun hrejected => not_heardRejection hsilent hrejected.2⟩
  rcases ends_notSuspended h₁ with ⟨rfl, rfl, message, rfl⟩ | h₂
  · exact .inl ⟨rfl, ⟨_, rfl⟩, fun hrejected => not_heardRejection hfind (by simpa using hrejected.2)⟩
  split at h₂
  · rename_i accountNumber bankCode hnumber hcode
    rcases ends_bind h₂ with ⟨err, rfl, hasked⟩ | ⟨r, ds₂, ds₃, s₁, rfl, hasked, h₃⟩
    · obtain ⟨r, hr, -⟩ := ends_attempt hasked
      cases hr
    obtain ⟨r', hr, hbank⟩ := ends_attempt hasked
    cases hr
    obtain ⟨a, ds', rfl, hsilent, ⟨err, rfl, rfl, rfl⟩ |
      ⟨account, rfl, ⟨rfl, err, rfl, hne⟩ | ⟨now, row, hs, rfl⟩⟩⟩ := ends_resolveWithBank he hbank
    · -- the bank threw
      split at h₃
      · rename_i heq; cases heq
      · rename_i message heq
        cases heq
        rcases ends_bind h₃ with ⟨err, rfl, hc⟩ | ⟨row, ds₄, ds₅, s₂, rfl, hc, h₄⟩
        · rcases (ends_command hc).2 with ⟨w, a, -, hres⟩ | ⟨rfl, err', hres, herr⟩
          · cases hres
          cases hres
          refine .inl ⟨rfl, ⟨err, rfl⟩, fun hrejected => ?_⟩
          obtain ⟨m, e', heq⟩ := hrejected.1
          cases heq
          rcases herr with hfault | ⟨w, hm⟩
          · exact hfault
          · rcases updateEntertainer_error hm with heq | heq | heq <;> cases heq
        · rcases (ends_command hc).2 with ⟨w, a, hm, hres⟩ | ⟨rfl, err', hres, -⟩
          · obtain ⟨e', he', -, hfound⟩ := updateEntertainer_run hm fun _ => rfl
            obtain rfl : e = e' := Option.some.inj (he.symm.trans he')
            obtain ⟨-, rfl, rfl⟩ := ends_raise h₄
            exact .inr (.inr ⟨e, message, _, he, (hfound id).trans (if_pos rfl), rfl⟩)
          · cases hres
      · rename_i err' hne heq
        cases heq
        obtain ⟨rfl, rfl, rfl⟩ := ends_raise h₃
        refine .inl ⟨rfl, ⟨err, rfl⟩, fun hrejected => ?_⟩
        obtain ⟨message, heq⟩ := heardRejection_asked hfind hsilent (by simp [Silent]) hrejected.2
        cases heq
        exact hne message rfl
    · -- what it gave was not stored
      split at h₃
      · rename_i heq; cases heq
      · rename_i message heq
        cases heq
        exact absurd rfl (hne message)
      · rename_i err' _ heq
        cases heq
        obtain ⟨rfl, rfl, rfl⟩ := ends_raise h₃
        refine .inl ⟨rfl, ⟨err, rfl⟩, fun hrejected => ?_⟩
        obtain ⟨message, heq⟩ := heardRejection_asked hfind hsilent (by simp [Silent]) hrejected.2
        cases heq
    · obtain ⟨rfl, rfl, rfl⟩ := ends_ret h₃
      refine .inr (.inl ⟨e, accountNumber, bankCode, account, now, _, he, ?_, ?_, ?_, fun hrejected => ?_, hs, rfl⟩)
      · simp [hnumber]
      · simp [hcode]
      · exact List.mem_append_right _ (List.mem_append_left _ (.tail _ (.head _)))
      · obtain ⟨message, heq⟩ := heardRejection_asked hfind hsilent (by simp [Silent]) hrejected
        cases heq
  · obtain ⟨rfl, rfl, rfl⟩ := ends_raise h₂
    exact .inl ⟨rfl, ⟨_, rfl⟩, fun hrejected => not_heardRejection hfind (by simpa using hrejected.2)⟩

theorem ends_confirmAccount {given : String}
    (h : Ends databaseFault (confirmAccount toUpperCase id given) s ds res s') :
    (s' = s ∧ ∃ err, res = .error err) ∨ ∃ e name now view, stored id s = some e ∧
      truthy e.resolvedAccountName = some name ∧
      normalizeName toUpperCase given = normalizeName toUpperCase name ∧
      stored id s' = some { e with
        accountConfirmedAt := some now, kycStatus := .PENDING, kycFailureReason := none } ∧
      res = .ok view := by
  rcases ends_found h with ⟨rfl, -, err, rfl, -⟩ | ⟨e, _, ds₁, -, -, he, h₁⟩
  · exact .inl ⟨rfl, err, rfl⟩
  rcases ends_notSuspended h₁ with ⟨rfl, -, message, rfl⟩ | h₂
  · exact .inl ⟨rfl, _, rfl⟩
  split at h₂
  · obtain ⟨-, rfl, rfl⟩ := ends_raise h₂
    exact .inl ⟨rfl, _, rfl⟩
  rename_i name hname
  split at h₂
  · obtain ⟨-, rfl, rfl⟩ := ends_raise h₂
    exact .inl ⟨rfl, _, rfl⟩
  rename_i hmatches
  rcases ends_updated (f := fun now e => { e with
      accountConfirmedAt := some now, kycStatus := .PENDING, kycFailureReason := none })
    he (fun _ _ => rfl) h₂ with ⟨rfl, hfailed⟩ | ⟨now, s₃, row, _, hs, hret⟩
  · exact .inl ⟨rfl, hfailed⟩
  · obtain ⟨-, rfl, rfl⟩ := ends_ret hret
    exact .inr ⟨e, name, now, _, he, hname, not_not.mp hmatches, hs, rfl⟩

theorem ends_verifyIdentity {documentType : IdentityDocumentType} {documentNumber : String}
    (h : Ends databaseFault (verifyIdentity id documentType documentNumber) s ds res s') :
    (s' = s ∧ ∃ err, res = .error err) ∨ ∃ e params result now view, stored id s = some e ∧
      e.accountConfirmedAt ≠ none ∧ .answered (.verifyIdentity params) (.ok result) ∈ ds ∧
      stored id s' = some (identityChecked documentType result now e) ∧ res = .ok view := by
  rcases ends_found h with ⟨rfl, -, err, rfl, -⟩ | ⟨e, ds₀, ds₁, rfl, -, he, h₁⟩
  · exact .inl ⟨rfl, err, rfl⟩
  rcases ends_notSuspended h₁ with ⟨rfl, -, message, rfl⟩ | h₂
  · exact .inl ⟨rfl, _, rfl⟩
  split at h₂
  · obtain ⟨-, rfl, rfl⟩ := ends_raise h₂
    exact .inl ⟨rfl, _, rfl⟩
  rename_i hconfirmed
  split at h₂
  · obtain ⟨-, rfl, rfl⟩ := ends_raise h₂
    exact .inl ⟨rfl, _, rfl⟩
  rcases ends_bind h₂ with ⟨err, rfl, hcheck⟩ | ⟨result, ds₂, ds₃, s₁, rfl, hcheck, h₃⟩
  · exact .inl ⟨(ends_request hcheck).1, err, rfl⟩
  obtain ⟨rfl, rfl⟩ := ends_request hcheck
  rcases ends_updated he (fun _ _ => identityChecked_same.1) h₃ with
    ⟨rfl, hfailed⟩ | ⟨now, s₃, row, _, hs, hret⟩
  · exact .inl ⟨rfl, hfailed⟩
  · obtain ⟨-, rfl, rfl⟩ := ends_ret hret
    exact .inr ⟨e, _, result, now, _, he, hconfirmed,
      List.mem_append_right ds₀ (List.mem_append_left ds₃ (.tail _ (.head _))), hs, rfl⟩

theorem ends_decideReview {decision : ReviewDecision} {reason : String}
    (h : Ends databaseFault (decideReview id decision reason) s ds res s') :
    (s' = s ∧ ∃ err, res = .error err) ∨ ∃ e now view, stored id s = some e ∧
      e.kycStatus = .REVIEW ∧ (decision = .APPROVE → e.accountConfirmedAt ≠ none) ∧
      stored id s' = some (reviewDecided decision reason now e) ∧ res = .ok view := by
  rcases ends_found h with ⟨rfl, -, err, rfl, -⟩ | ⟨e, _, ds₁, -, -, he, h₁⟩
  · exact .inl ⟨rfl, err, rfl⟩
  split at h₁
  · obtain ⟨-, rfl, rfl⟩ := ends_raise h₁
    exact .inl ⟨rfl, _, rfl⟩
  rename_i hreview
  split at h₁
  · obtain ⟨-, rfl, rfl⟩ := ends_raise h₁
    exact .inl ⟨rfl, _, rfl⟩
  rename_i hconfirmed
  rcases ends_updated he (fun _ _ => reviewDecided_same.1) h₁ with
    ⟨rfl, hfailed⟩ | ⟨now, s₃, row, _, hs, hret⟩
  · exact .inl ⟨rfl, hfailed⟩
  · obtain ⟨-, rfl, rfl⟩ := ends_ret hret
    exact .inr ⟨e, now, _, he, not_not.mp hreview, fun happrove hnone => hconfirmed ⟨happrove, hnone⟩,
      hs, rfl⟩

end Calls

/-- **What a complete call does.** -/
theorem moves (h : Ends databaseFault (d.label.program toUpperCase id) d.before d.log d.result d.after) :
    Moves toUpperCase id d := by
  have hnothing : d.after = d.before → (∃ err, d.result = .error err) →
      (d.label = .resolveAccount → ¬ Rejected d) → Moves toUpperCase id d := by
    rintro hs ⟨err, herr⟩ hrejected
    exact .nothing (by rw [hs]) (fun ⟨view, hview⟩ => by rw [herr] at hview; cases hview)
      fun hr => hrejected hr.1 hr
  rcases hlabel : d.label with input | _ | given | ⟨documentType, documentNumber⟩ | ⟨decision, reason⟩ <;>
    rw [hlabel] at h
  · rcases ends_submitBankDetails h with ⟨hs, herr⟩ | ⟨e, bank, now, view, he, hs, -⟩
    · exact hnothing hs herr fun hl => by rw [hlabel] at hl; cases hl
    · exact .submitted e input bank now hlabel he hs
  · rcases ends_resolveAccount h with ⟨hs, herr, hnot⟩ |
      ⟨e, accountNumber, bankCode, account, now, view, he, hnumber, hcode, hlog, -, hs, hres⟩ |
      ⟨e, message, err, he, hs, hres⟩
    · exact hnothing hs herr fun _ hr => hnot ⟨hr.2.1, hr.2.2⟩
    · exact .resolved e account.accountName now
        ⟨⟨view, hres⟩, hlabel, accountNumber, bankCode, account, hlog, rfl⟩ he hnumber hcode hs
    · exact .rejected e message hlabel (fun ⟨view, hview⟩ => by rw [hres] at hview; cases hview) he hs
  · rcases ends_confirmAccount h with ⟨hs, herr⟩ | ⟨e, name, now, view, he, hname, hmatches, hs, hres⟩
    · exact hnothing hs herr fun hl => by rw [hlabel] at hl; cases hl
    · exact .confirmed e given name now ⟨⟨view, hres⟩, hlabel⟩ he hname hmatches hs
  · rcases ends_verifyIdentity h with ⟨hs, herr⟩ |
      ⟨e, params, result, now, view, he, hconfirmed, hlog, hs, hres⟩
    · exact hnothing hs herr fun hl => by rw [hlabel] at hl; cases hl
    · exact .checked e documentType documentNumber result now hlabel
        (fun hverified => ⟨⟨view, hres⟩, ⟨_, _, hlabel⟩, params, result, hlog, hverified⟩) he hconfirmed hs
  · rcases ends_decideReview h with ⟨hs, herr⟩ | ⟨e, now, view, he, hreview, hconfirmed, hs, hres⟩
    · exact hnothing hs herr fun hl => by rw [hlabel] at hl; cases hl
    · refine .decided e decision reason now hlabel (fun happrove => ⟨?_, hconfirmed happrove⟩) he hs
      exact ⟨⟨view, hres⟩, ⟨reason, happrove ▸ hlabel⟩, e, he, hreview⟩

/-! ### What the columns say about the past -/

/-- What the history says where the columns are set. -/
structure Known (toUpperCase : String → String) (id : Uuid) (ds : List KycDone) (e : Entertainer) :
    Prop where
  named : ∀ name, e.resolvedAccountName = some name → ResolvedSince id name ds
  account : e.resolvedAccountName ≠ none → truthy e.accountNumber ≠ none ∧ truthy e.bankCode ≠ none
  confirmed : e.accountConfirmedAt ≠ none →
    truthy e.resolvedAccountName ≠ none ∧ ConfirmedSince toUpperCase id ds
  verified : e.kycStatus = .VERIFIED → e.accountConfirmedAt ≠ none → Onboarded toUpperCase id ds

variable {ds : List KycDone} {e' : Entertainer} {s₀ s : Db}

/-- Nothing was found out about the entertainer. -/
def Unproven (e : Entertainer) : Prop := e.resolvedAccountName = none ∧ e.accountConfirmedAt = none

lemma Unproven.known (h : Unproven e) : Known toUpperCase id ds e := by
  obtain ⟨hname, hconfirmed⟩ := h
  refine ⟨fun name hn => ?_, fun hn => absurd hname hn, fun hc => absurd hconfirmed hc,
    fun _ hc => absurd hconfirmed hc⟩
  rw [hname] at hn; cases hn

/-- A call that leaves the account, its name and its confirmation. -/
lemma Known.stays (h : Known toUpperCase id ds e) (hsame : SameAccount id d)
    (hnot : ∀ name, ¬ Resolved name d) (haccount : accountDetails e' = accountDetails e)
    (hname : e'.resolvedAccountName = e.resolvedAccountName)
    (hconfirmed : e'.accountConfirmedAt = e.accountConfirmedAt)
    (hverified : e'.kycStatus = .VERIFIED → e'.accountConfirmedAt ≠ none →
      Onboarded toUpperCase id (ds ++ [d])) : Known toUpperCase id (ds ++ [d]) e' := by
  obtain ⟨hnumber, hcode⟩ := Prod.mk.inj haccount
  refine ⟨fun name hn => (h.named name (hname ▸ hn)).snoc ⟨hsame, hnot⟩, fun hn => ?_, fun hc => ?_,
    hverified⟩
  · rw [hnumber, hcode]
    exact h.account (hname ▸ hn)
  · obtain ⟨htruthy, hsince⟩ := h.confirmed (hconfirmed ▸ hc)
    exact ⟨hname ▸ htruthy, hsince.snoc ⟨hsame, hnot⟩⟩

lemma sameAccount (he : stored id d.before = some e) (he' : stored id d.after = some e')
    (h : accountDetails e' = accountDetails e) : SameAccount id d := by
  rw [SameAccount, he, he', Option.map_some, Option.map_some, h]

lemma not_resolved {op : KycOperation} (hlabel : d.label = op) (hne : op ≠ .resolveAccount) (name : String) :
    ¬ Resolved name d := fun h => hne (hlabel.symm.trans h.2.1)

/-- **One more call.** -/
theorem known_snoc (hmoves : Moves toUpperCase id d)
    (h : ∀ e, stored id d.before = some e → Known toUpperCase id ds e) (he' : stored id d.after = some e') :
    Known toUpperCase id (ds ++ [d]) e' := by
  cases hmoves with
  | nothing hsame hfailed hnot =>
    have he : stored id d.before = some e' := hsame ▸ he'
    have hsame' : SameAccount id d := sameAccount he he' rfl
    have hresolved : ∀ name, ¬ Resolved name d := fun name hr => hfailed hr.1
    refine (h e' he).stays hsame' hresolved rfl rfl rfl fun hv hc => ?_
    exact ((h e' he).verified hv hc).snoc
      ⟨hsame', fun hs => hfailed hs.1, hresolved, hnot, fun name hc => hfailed hc.1⟩
  | submitted e input bank now hlabel he hafter =>
    obtain rfl := Option.some.inj (hafter.symm.trans he')
    by_cases hchanged : e.accountNumber ≠ some input.accountNumber ∨ e.bankCode ≠ some bank.code
    · refine Unproven.known ?_
      simp [bankDetailsCaptured, hchanged, Unproven]
    · rw [decide_eq_false hchanged] at he' ⊢
      simp only [not_or, not_not] at hchanged
      have haccount : accountDetails (bankDetailsCaptured bank input.accountNumber false now e) =
          accountDetails e := Prod.ext hchanged.1.symm hchanged.2.symm
      exact (h e he).stays (sameAccount he he' haccount) (not_resolved hlabel nofun) haccount rfl rfl
        nofun
  | resolved e name now hresolved he hnumber hcode hafter =>
    obtain rfl := Option.some.inj (hafter.symm.trans he')
    refine ⟨fun name' hn => ?_, fun _ => ⟨hnumber, hcode⟩, fun hc => absurd rfl hc, nofun⟩
    obtain rfl : name = name' := Option.some.inj hn
    exact since_now ⟨hresolved, sameAccount he he' rfl⟩
  | rejected e message hlabel hfailed he hafter =>
    obtain rfl := Option.some.inj (hafter.symm.trans he')
    exact (h e he).stays (sameAccount he he' rfl) (fun name hr => hfailed hr.1) rfl rfl rfl nofun
  | confirmed e given name now hconfirmed he hname hmatches hafter =>
    obtain rfl := Option.some.inj (hafter.symm.trans he')
    have hsame : SameAccount id d := sameAccount he he' rfl
    have hresolved := not_resolved hconfirmed.2 nofun
    refine ⟨fun name' hn => ((h e he).named name' hn).snoc ⟨hsame, hresolved⟩, (h e he).account,
      fun _ => ⟨?_, since_now ⟨name, given, (h e he).named name (of_truthy hname), hconfirmed, hmatches,
        hsame⟩⟩, nofun⟩
    show truthy e.resolvedAccountName ≠ none
    rw [hname]; nofun
  | checked e documentType documentNumber result now hlabel hverified he hconfirmed hafter =>
    obtain rfl := Option.some.inj (hafter.symm.trans he')
    have haccount : accountDetails (identityChecked documentType result now e) = accountDetails e := by
      unfold identityChecked; split <;> rfl
    have hsame : SameAccount id d := sameAccount he he' haccount
    refine (h e he).stays hsame (not_resolved hlabel nofun) haccount
      (by unfold identityChecked; split <;> rfl) (by unfold identityChecked; split <;> rfl) fun hv _ => ?_
    refine since_now ⟨((h e he).confirmed hconfirmed).2, .inl (hverified ?_), hsame⟩
    unfold identityChecked at hv
    split at hv
    · assumption
    · cases hv
    · cases hv
  | decided e decision reason now hlabel happroved he hafter =>
    obtain rfl := Option.some.inj (hafter.symm.trans he')
    have haccount : accountDetails (reviewDecided decision reason now e) = accountDetails e := by
      unfold reviewDecided; split <;> rfl
    have hsame : SameAccount id d := sameAccount he he' haccount
    refine (h e he).stays hsame (not_resolved hlabel nofun) haccount
      (by unfold reviewDecided; split <;> rfl) (by unfold reviewDecided; split <;> rfl) fun hv _ => ?_
    cases decision with
    | APPROVE =>
      obtain ⟨hr, hconfirmed⟩ := happroved rfl
      exact since_now ⟨((h e he).confirmed hconfirmed).2, .inr hr, hsame⟩
    | REJECT => cases hv

theorem known_history (hist : KycHistory toUpperCase id s₀ ds s)
    (h₀ : ∀ e, stored id s₀ = some e → Unproven e) :
    ∀ e, stored id s = some e → Known toUpperCase id ds e := by
  induction hist with
  | nil => exact fun e he => (h₀ e he).known
  | snoc hist hd ih => exact fun e he => known_snoc (moves hd) ih he

/-- What is known of a confirmed account is what `nextStepFor` looks at. -/
lemma Known.done (h : Known toUpperCase id ds e) :
    (toView e).payoutsEnabled = true ↔ (toView e).nextStep = .DONE := by
  simp only [toView, nextStepFor, Bool.and_eq_true, beq_iff_eq, Option.isSome_iff_ne_none]
  constructor
  · rintro ⟨hv, hc⟩
    have hname := (h.confirmed hc).1
    have hsome : e.resolvedAccountName ≠ none := fun hnone => hname (by rw [hnone]; rfl)
    obtain ⟨hnumber, hcode⟩ := h.account hsome
    simp [hnumber, hcode, hname, hc, hv]
  · intro hdone
    split at hdone
    · cases hdone
    split at hdone
    · cases hdone
    split at hdone
    · cases hdone
    rename_i hc
    split at hdone
    · exact ⟨‹_›, hc⟩
    · cases hdone

/-- **Payouts are enabled only after the whole onboarding, in order**, for an entertainer about whom
nothing was found out when the calls began; and then there is no step left. -/
theorem onboarded_in_order (hist : KycHistory toUpperCase id s₀ ds s)
    (h₀ : ∀ e, stored id s₀ = some e → Unproven e) (he : stored id s = some e) :
    (e.kycStatus = .VERIFIED → e.accountConfirmedAt ≠ none → Onboarded toUpperCase id ds) ∧
      ((toView e).payoutsEnabled = true ↔ (toView e).nextStep = .DONE) :=
  ⟨(known_history hist h₀ e he).verified, (known_history hist h₀ e he).done⟩

/-- An entertainer as created. -/
def justCreated : Db :=
  { entertainers := ⟨[{ Money.sampleEntertainer with
      bankName := none, accountNumber := none, bankCode := none, kycStatus := .NOT_STARTED
      resolvedAccountName := none, accountResolvedAt := none, accountConfirmedAt := none
      kycSubmittedAt := none, kycVerifiedAt := none, identityCheckType := none
      identityCheckedAt := none }], by decide⟩ }

def wholeOnboarding : List (KycOperation × Input) :=
  [(.submitBankDetails ⟨none, some "058", "0123456789"⟩, Money.inputAt 1),
    (.resolveAccount, Money.inputAt 2), (.confirmAccount " ADA  OBI", Money.inputAt 3),
    (.verifyIdentity .BVN "22222222222", Money.inputAt 4)]

def asTyped (s : String) : String := s

theorem onboarded_in_order_sample : ∃ ds s e, KycHistory asTyped (Money.uid 3) justCreated ds s ∧
    stored (Money.uid 3) s = some e ∧ e.kycStatus = .VERIFIED ∧ e.accountConfirmedAt ≠ none ∧
    Onboarded asTyped (Money.uid 3) ds ∧ (toView e).nextStep = .DONE := by
  have hist := history_perform (o := Money.agreeable) wholeOnboarding
    (.nil : KycHistory asTyped (Money.uid 3) justCreated [] justCreated)
  have hrow : ((stored (Money.uid 3) (perform (KycOperation.program asTyped (Money.uid 3))
      Money.agreeable [] justCreated wholeOnboarding).2).any fun e =>
      e.kycStatus == .VERIFIED && e.accountConfirmedAt.isSome) = true := by
    decide +kernel
  obtain ⟨e, he, hdone⟩ := (Option.any_eq_true _ _).mp hrow
  simp only [Bool.and_eq_true, beq_iff_eq, Option.isSome_iff_ne_none] at hdone
  obtain ⟨honboarded, hnext⟩ := onboarded_in_order hist (fun e he => by cases he; exact ⟨rfl, rfl⟩) he
  exact ⟨_, _, e, hist, he, hdone.1, hdone.2, honboarded hdone.1 hdone.2,
    hnext.mp (by simp [toView, hdone.1, Option.isSome_iff_ne_none, hdone.2])⟩

end Splitcore.Onboarding
