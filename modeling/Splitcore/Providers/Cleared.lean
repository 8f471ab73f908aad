import Splitcore.Onboarding.Onboarded
import Splitcore.Providers.PaystackKyc

/-!
Onboarding over HTTP: the name an account goes by, and what an entertainer is verified or in review for, go back
to what Paystack answered about that account and that entertainer.
-/

namespace Splitcore.Providers

open Relational Interleaving Onboarding

variable {toUpperCase : String → String} {id : Uuid} {d : KycDone} {e e' : Entertainer} {ds : List KycDone}
  {s₀ s s' : Db} {log : List (Did App)} {res : Except Err KycStatusView}

/-! ### What is asked -/

/-- What a document of the entertainer is checked with. -/
def identityParams (documentType : IdentityDocumentType) (documentNumber : String) (e : Entertainer) :
    IdentityParams where
  documentType := documentType
  documentNumber := documentNumber
  firstName := (splitLegalName e.legalName).1
  lastName := (splitLegalName e.legalName).2
  accountNumber := e.accountNumber
  bankCode := e.bankCode

/-- What is answered about accounts and documents is made of a response. -/
def OverHttp (d : KycDone) : Prop :=
  (∀ accountNumber bankCode a, .answered (.resolveAccount accountNumber bankCode) a ∈ d.log →
    ∃ fetched, a = PaystackKyc.resolveAccount accountNumber bankCode fetched) ∧
  ∀ params a, .answered (.verifyIdentity params) a ∈ d.log → ∃ fetched, a = PaystackKyc.verifyIdentity fetched

/-- Paystack gave the name for the account that is stored. -/
def Named (id : Uuid) (name : String) (d : KycDone) : Prop :=
  Resolved name d ∧ SameAccount id d ∧ ∃ e accountNumber bankCode fetched, stored id d.before = some e ∧
    truthy e.accountNumber = some accountNumber ∧ truthy e.bankCode = some bankCode ∧
    .answered (.resolveAccount accountNumber bankCode)
      (PaystackKyc.resolveAccount accountNumber bankCode fetched) ∈ d.log ∧ PaystackKyc.Names fetched name

/-- A document was checked for the entertainer, with a response of this kind. -/
def Checked (id : Uuid) (said : Fetched → Prop) (d : KycDone) : Prop :=
  ∃ e documentType documentNumber fetched, stored id d.before = some e ∧
    .answered (.verifyIdentity (identityParams documentType documentNumber e)) (PaystackKyc.verifyIdentity fetched) ∈
      d.log ∧ said fetched

def Unchanged (id : Uuid) (d : KycDone) : Prop := stored id d.after = stored id d.before

/-- The last thing that happened to the entertainer is a check that could not be made. -/
def Unverifiable (id : Uuid) : List KycDone → Prop :=
  Since (fun _ d => Checked id PaystackKyc.Unreached d) (Unchanged id)

/-- What the columns say, Paystack said: the name of the account since it was stored; that the document is the
entertainer's, unless a person approved what could not be checked; and that it could not be. -/
structure OnItsWord (id : Uuid) (ds : List KycDone) (e : Entertainer) : Prop where
  named : ∀ name, e.resolvedAccountName = some name →
    Since (fun _ d => Named id name d) (fun d => SameAccount id d ∧ ∀ name, ¬Resolved name d) ds
  verified : e.kycStatus = .VERIFIED → Since (fun before d =>
    Checked id PaystackKyc.Matches d ∨ Approved id d ∧ Unverifiable id before) (Unchanged id) ds
  review : e.kycStatus = .REVIEW → Unverifiable id ds

/-- Nothing was found out about the entertainer, and nothing decided. -/
structure Undecided (e : Entertainer) : Prop where
  name : e.resolvedAccountName = none
  verified : e.kycStatus ≠ .VERIFIED
  review : e.kycStatus ≠ .REVIEW

lemma notSuspended_spares {A : Ask → Prop} :
    (assertNotSuspended e).Spares (σ := App) (fun _ => True) A fun _ => () := by
  unfold assertNotSuspended
  split <;> trivial

/-- The bank is asked about the account that is stored. -/
lemma resolveAccount_asks {accountNumber bankCode : String} {a : Except Err ResolvedAccount}
    (h : Ends databaseFault (Onboarding.resolveAccount id) s log res s')
    (hmem : .answered (.resolveAccount accountNumber bankCode) a ∈ log) : ∃ e, stored id s = some e ∧
      truthy e.accountNumber = some accountNumber ∧ truthy e.bankCode = some bankCode := by
  rcases ends_found h with ⟨-, hsilent, -⟩ | ⟨e, ds₁, ds₂, rfl, hsilent, he, hrest⟩
  · exact absurd hmem (hsilent _ _)
  rcases List.mem_append.mp hmem with hmem | hmem
  · exact absurd hmem (hsilent _ _)
  refine ⟨e, he, ?_⟩
  let A : Ask → Prop := fun q =>
    ∀ n c, q = .resolveAccount n c → truthy e.accountNumber = some n ∧ truthy e.bankCode = some c
  have hstmt : ∀ {site : Site} {α : Type} (m : Tx α),
      (statement site m).Spares (σ := App) (fun _ => True) A fun _ => () :=
    fun m => Prog.spares_command trivial fun _ _ _ _ _ => rfl
  have hspares := ends_asks (A := A) (f := fun _ => ()) (S := fun _ => True) hrest ?_ hmem
  · exact hspares _ _ rfl
  refine Prog.spares_bind notSuspended_spares fun _ => ?_
  split
  · rename_i n c hn hc
    refine Prog.spares_bind (Prog.spares_attempt (Prog.spares_bind (Prog.spares_request ?_) fun _ => hstmt _)) fun r => ?_
    · rintro _ _ ⟨⟩
      exact ⟨hn, hc⟩
    split
    · trivial
    · exact Prog.spares_bind (hstmt _) fun _ => trivial
    · trivial
  · trivial

lemma verifyIdentity_asks {documentType : IdentityDocumentType} {documentNumber : String} {params : IdentityParams}
    {a : Except Err IdentityCheckResult}
    (h : Ends databaseFault (Onboarding.verifyIdentity id documentType documentNumber) s log res s')
    (hmem : .answered (.verifyIdentity params) a ∈ log) :
    ∃ e, stored id s = some e ∧ params = identityParams documentType documentNumber e := by
  rcases ends_found h with ⟨-, hsilent, -⟩ | ⟨e, ds₁, ds₂, rfl, hsilent, he, hrest⟩
  · exact absurd hmem (hsilent _ _)
  rcases List.mem_append.mp hmem with hmem | hmem
  · exact absurd hmem (hsilent _ _)
  refine ⟨e, he, ?_⟩
  let A : Ask → Prop := fun q => q = .verifyIdentity (identityParams documentType documentNumber e)
  have hasked := ends_asks (A := A) (f := fun _ => ()) (S := fun _ => True) hrest ?_ hmem
  · cases hasked
    rfl
  refine Prog.spares_bind notSuspended_spares fun _ => ?_
  split
  · trivial
  split
  · trivial
  · exact Prog.spares_bind (Prog.spares_request rfl) fun _ =>
      Prog.spares_bind (Prog.spares_command trivial fun _ _ _ _ _ => rfl) fun _ => trivial

/-! ### What a call leaves to be said -/

lemma OnItsWord.stays (h : OnItsWord id ds e) (hsame : SameAccount id d) (hnot : ∀ name, ¬Resolved name d)
    (hname : e'.resolvedAccountName = e.resolvedAccountName)
    (hverified : e'.kycStatus = .VERIFIED → Since (fun before d =>
      Checked id PaystackKyc.Matches d ∨ Approved id d ∧ Unverifiable id before) (Unchanged id) (ds ++ [d]))
    (hreview : e'.kycStatus = .REVIEW → Unverifiable id (ds ++ [d])) : OnItsWord id (ds ++ [d]) e' :=
  ⟨fun name hn => (h.named name (hname ▸ hn)).snoc ⟨hsame, hnot⟩, hverified, hreview⟩

/-- A call that did nothing to the entertainer. -/
lemma OnItsWord.unchanged (h : OnItsWord id ds e) (hsame : Unchanged id d) (hnot : ∀ name, ¬Resolved name d) :
    OnItsWord id (ds ++ [d]) e :=
  h.stays (congrArg (Option.map accountDetails) hsame) hnot rfl (fun hv => (h.verified hv).snoc hsame)
    fun hr => (h.review hr).snoc hsame

/-- A call that leaves the entertainer neither verified nor in review. -/
lemma OnItsWord.pends (h : OnItsWord id ds e) (hsame : SameAccount id d) (hnot : ∀ name, ¬Resolved name d)
    (hname : e'.resolvedAccountName = e.resolvedAccountName)
    (hstatus : e'.kycStatus = .PENDING ∨ e'.kycStatus = .FAILED) : OnItsWord id (ds ++ [d]) e' := by
  refine h.stays hsame hnot hname (fun hv => ?_) fun hr => ?_
  · rcases hstatus with hs | hs <;> rw [hs] at hv <;> cases hv
  · rcases hstatus with hs | hs <;> rw [hs] at hr <;> cases hr

/-- A name that was resolved is Paystack's, and of the account that is stored. -/
lemma named_of_resolved {name : String}
    (hd : Ends databaseFault (d.label.program toUpperCase id) d.before d.log d.result d.after) (hhttp : OverHttp d)
    (h : Resolved name d) (hsame : SameAccount id d) : Named id name d := by
  have hresolved := h
  obtain ⟨-, hlabel, accountNumber, bankCode, account, hmem, rfl⟩ := h
  rw [hlabel] at hd
  obtain ⟨e, he, hnumber, hcode⟩ := resolveAccount_asks hd hmem
  obtain ⟨fetched, hfetched⟩ := hhttp.1 _ _ _ hmem
  rw [hfetched] at hmem
  exact ⟨hresolved, hsame, e, accountNumber, bankCode, fetched, he, hnumber, hcode, hmem,
    PaystackKyc.names_of_resolved hfetched.symm⟩

/-- A check that was stored goes back to a response. -/
lemma checked_of_stored {documentType : IdentityDocumentType} {documentNumber : String} {params : IdentityParams}
    {result : IdentityCheckResult} {said : Fetched → Prop}
    (hd : Ends databaseFault (Onboarding.verifyIdentity id documentType documentNumber) d.before d.log d.result d.after)
    (hhttp : OverHttp d) (hmem : .answered (.verifyIdentity params) (.ok result) ∈ d.log)
    (hsaid : ∀ fetched, PaystackKyc.verifyIdentity fetched = .ok result → said fetched) : Checked id said d := by
  obtain ⟨e, he, rfl⟩ := verifyIdentity_asks hd hmem
  obtain ⟨fetched, hfetched⟩ := hhttp.2 _ _ hmem
  rw [hfetched] at hmem
  exact ⟨e, documentType, documentNumber, fetched, he, hmem, hsaid fetched hfetched.symm⟩

/-- **One more call.** -/
theorem onItsWord_snoc (hd : Ends databaseFault (d.label.program toUpperCase id) d.before d.log d.result d.after)
    (hhttp : OverHttp d) (h : ∀ e, stored id d.before = some e → OnItsWord id ds e)
    (he' : stored id d.after = some e') : OnItsWord id (ds ++ [d]) e' := by
  cases moves hd with
  | nothing hsame hfailed hnot => exact (h e' (hsame ▸ he')).unchanged hsame fun name hr => hfailed hr.1
  | submitted e input bank now hlabel he hafter =>
    obtain rfl := Option.some.inj (hafter.symm.trans he')
    have hstatus : ∀ changed, (bankDetailsCaptured bank input.accountNumber changed now e).kycStatus = .PENDING := by
      intro changed
      unfold bankDetailsCaptured
      split <;> rfl
    by_cases hchanged : e.accountNumber ≠ some input.accountNumber ∨ e.bankCode ≠ some bank.code
    · refine ⟨fun name hn => ?_, fun hv => ?_, fun hr => ?_⟩
      · simp [bankDetailsCaptured, hchanged] at hn
      · rw [hstatus] at hv; cases hv
      · rw [hstatus] at hr; cases hr
    · rw [decide_eq_false hchanged] at he' ⊢
      simp only [not_or, not_not] at hchanged
      have haccount : accountDetails (bankDetailsCaptured bank input.accountNumber false now e) = accountDetails e :=
        Prod.ext hchanged.1.symm hchanged.2.symm
      exact (h e he).pends (sameAccount he he' haccount) (not_resolved hlabel fun h => by cases h) rfl (.inl rfl)
  | resolved e name now hresolved he hnumber hcode hafter =>
    obtain rfl := Option.some.inj (hafter.symm.trans he')
    refine ⟨fun name' hn => ?_, fun hv => ?_, fun hr => ?_⟩
    · obtain rfl : name = name' := Option.some.inj hn
      exact since_now (named_of_resolved hd hhttp hresolved (sameAccount he he' rfl))
    · cases hv
    · cases hr
  | rejected e message hlabel hfailed he hafter =>
    obtain rfl := Option.some.inj (hafter.symm.trans he')
    exact (h e he).pends (sameAccount he he' rfl) (fun name hr => hfailed hr.1) rfl (.inr rfl)
  | confirmed e given name now hconfirmed he hname hmatches hafter =>
    obtain rfl := Option.some.inj (hafter.symm.trans he')
    have hnot := not_resolved hconfirmed.2 fun h => by cases h
    exact (h e he).pends (sameAccount he he' rfl) hnot rfl (.inl rfl)
  | checked _ documentType documentNumber _ _ hlabel _ _ _ _ =>
    have hnot := not_resolved hlabel fun h => by cases h
    rw [hlabel] at hd
    rcases ends_verifyIdentity hd with ⟨hs, -⟩ | ⟨e, params, result, now, -, he, -, hmem, hafter, -⟩
    · have hsame : Unchanged id d := congrArg (stored id) hs
      exact (h e' (hsame ▸ he')).unchanged hsame hnot
    obtain rfl := Option.some.inj (hafter.symm.trans he')
    have haccount : accountDetails (identityChecked documentType result now e) = accountDetails e := by
      unfold identityChecked; split <;> rfl
    refine (h e he).stays (sameAccount he he' haccount) hnot (by unfold identityChecked; split <;> rfl)
      (fun hv => since_now (.inl (checked_of_stored hd hhttp hmem fun fetched hf => ?_)))
      fun hr => since_now (checked_of_stored hd hhttp hmem fun fetched hf => ?_)
    · refine (PaystackKyc.verifyIdentity_verified hf).mp ?_
      unfold identityChecked at hv
      split at hv
      · assumption
      · cases hv
      · cases hv
    · refine (PaystackKyc.verifyIdentity_unavailable hf).mp ?_
      unfold identityChecked at hr
      split at hr
      · cases hr
      · cases hr
      · assumption
  | decided e decision reason now hlabel happroved he hafter =>
    obtain rfl := Option.some.inj (hafter.symm.trans he')
    have haccount : accountDetails (reviewDecided decision reason now e) = accountDetails e := by
      unfold reviewDecided; split <;> rfl
    refine (h e he).stays (sameAccount he he' haccount) (not_resolved hlabel fun h => by cases h)
      (by unfold reviewDecided; split <;> rfl) (fun hv => ?_) fun hr => ?_
    · cases decision with
      | APPROVE =>
        obtain ⟨happrove, -⟩ := happroved rfl
        obtain ⟨e₁, he₁, hreview⟩ := happrove.2.2
        exact since_now (.inr ⟨happrove, (h e₁ he₁).review hreview⟩)
      | REJECT => cases hv
    · cases decision <;> cases hr

/-- **An entertainer is cleared on Paystack's word**: nobody goes by a name that it did not give for the account,
is verified by a document that it did not match, or is approved by hand after a check that it made. -/
theorem cleared_on_its_word (hist : KycHistory toUpperCase id s₀ ds s)
    (h₀ : ∀ e, stored id s₀ = some e → Undecided e) (hhttp : ∀ d ∈ ds, OverHttp d) (he : stored id s = some e) :
    OnItsWord id ds e := by
  induction hist generalizing e with
  | nil =>
    obtain ⟨hname, hverified, hreview⟩ := h₀ e he
    refine ⟨fun name hn => ?_, fun hv => absurd hv hverified, fun hr => absurd hr hreview⟩
    rw [hname] at hn
    cases hn
  | snoc hist hd ih =>
    exact onItsWord_snoc hd (hhttp _ (List.mem_append_right _ List.mem_cons_self))
      (fun e he => ih (fun d hd => hhttp d (List.mem_append_left _ hd)) he) he

/-! ### Approved by hand -/

def naming (accountName : String) : Fetched :=
  .response 200 "OK" (.ok (.obj [("status", .bool true), ("data", .obj [("account_name", .str accountName)])]))

def notEnabled : Fetched := .response 404 "Not Found" (.ok (.obj []))

/-- Paystack knows the account, and cannot verify identities. -/
def withoutIdentities : (q : Ask) → Except Err (Ans q)
  | .resolveAccount accountNumber bankCode =>
    PaystackKyc.resolveAccount accountNumber bankCode (naming "ADA OBI")
  | .verifyIdentity _ => PaystackKyc.verifyIdentity notEnabled
  | q => Money.agreeable q

def reviewedOnboarding : List (KycOperation × Input) :=
  [(.submitBankDetails ⟨none, some "058", "0123456789"⟩, Money.inputAt 1), (.resolveAccount, Money.inputAt 2),
    (.confirmAccount " ADA  OBI", Money.inputAt 3), (.verifyIdentity .BVN "22222222222", Money.inputAt 4),
    (.decideReview .APPROVE "seen in person", Money.inputAt 5)]

theorem cleared_on_its_word_sample : ∃ ds s e, KycHistory asTyped (Money.uid 3) justCreated ds s ∧
    stored (Money.uid 3) s = some e ∧ (toView e).payoutsEnabled = true ∧ OnItsWord (Money.uid 3) ds e := by
  have hist := history_perform (o := withoutIdentities) reviewedOnboarding
    (.nil : KycHistory asTyped (Money.uid 3) justCreated [] justCreated)
  have hrow : ((stored (Money.uid 3) (perform (KycOperation.program asTyped (Money.uid 3)) withoutIdentities []
      justCreated reviewedOnboarding).2).any fun e => (toView e).payoutsEnabled) = true := by
    decide +kernel
  obtain ⟨e, he, hcleared⟩ := (Option.any_eq_true _ _).mp hrow
  refine ⟨_, _, e, hist, he, hcleared, cleared_on_its_word hist (fun e he => ?_) (fun d hd => ?_) he⟩
  · cases he
    exact ⟨rfl, nofun, nofun⟩
  · rcases perform_answered hd with hmem | hall
    · cases hmem
    · exact ⟨fun accountNumber bankCode a ha => ⟨naming "ADA OBI", hall (.resolveAccount accountNumber bankCode) a ha⟩,
        fun params a ha => ⟨notEnabled, hall (.verifyIdentity params) a ha⟩⟩

end Splitcore.Providers
