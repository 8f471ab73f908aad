import Splitcore.Onboarding.Onboarded

/-!
An account the bank rejected: when it is not paid until it is resolved and confirmed again.
-/

namespace Splitcore.Onboarding

open Relational Interleaving

/-- The bank rejected the account, whatever became of that. -/
def AccountRejected (d : KycDone) : Prop := d.label = .resolveAccount ∧ HeardRejection d.log

/-- There is no name to be confirmed, and no confirmation. -/
def Unnamed (e : Entertainer) : Prop := truthy e.resolvedAccountName = none ∧ e.accountConfirmedAt = none

/-- What the bank rejects has no name or confirmation left from before. -/
def NothingLeft (id : Uuid) (d : KycDone) : Prop :=
  AccountRejected d → ∀ e, stored id d.before = some e → Unnamed e

/-- The bank gave a name, and then that name was confirmed. -/
def Reconfirmed (toUpperCase : String → String) : List KycDone → Prop :=
  Since (fun ds d => ∃ name given, (∃ r ∈ ds, Resolved name r) ∧ ConfirmedAs given d ∧
    normalizeName toUpperCase given = normalizeName toUpperCase name) fun _ => True

/-- Once the bank rejected the account, nothing is paid to it until it is resolved and confirmed again. -/
def StaysUnpaid (toUpperCase : String → String) (id : Uuid) (ds : List KycDone) (s : Db) : Prop :=
  ∀ before d after, ds = before ++ d :: after → AccountRejected d → ∀ e, stored id s = some e →
    (toView e).payoutsEnabled = true → Reconfirmed toUpperCase after

/-- What a row says of the calls since the rejection. -/
structure Regained (toUpperCase : String → String) (after : List KycDone) (e : Entertainer) : Prop where
  named : ∀ name, truthy e.resolvedAccountName = some name → ∃ r ∈ after, Resolved name r
  confirmed : e.accountConfirmedAt ≠ none → Reconfirmed toUpperCase after

variable {toUpperCase : String → String} {id : Uuid} {d : KycDone} {e e' : Entertainer} {ds after : List KycDone}
  {s₀ s : Db}

lemma Unnamed.regained (h : Unnamed e) : Regained toUpperCase after e := by
  refine ⟨fun name hname => ?_, fun hconfirmed => absurd h.2 hconfirmed⟩
  rw [h.1] at hname
  cases hname

/-- A call that leaves the name and the confirmation. -/
lemma Regained.stays (h : Regained toUpperCase after e) (hname : e'.resolvedAccountName = e.resolvedAccountName)
    (hconfirmed : e'.accountConfirmedAt = e.accountConfirmedAt) : Regained toUpperCase (after ++ [d]) e' := by
  refine ⟨fun name hn => ?_, fun hc => (h.confirmed (hconfirmed ▸ hc)).snoc trivial⟩
  obtain ⟨r, hr, hresolved⟩ := h.named name (hname ▸ hn)
  exact ⟨r, List.mem_append_left _ hr, hresolved⟩

/-- **One more call.** -/
theorem regained_snoc (hmoves : Moves toUpperCase id d)
    (h : ∀ e, stored id d.before = some e → Regained toUpperCase after e) (he' : stored id d.after = some e') :
    Regained toUpperCase (after ++ [d]) e' := by
  cases hmoves with
  | nothing hsame => exact (h e' (hsame ▸ he')).stays rfl rfl
  | submitted e input bank now hlabel he hafter =>
    obtain rfl := Option.some.inj (hafter.symm.trans he')
    by_cases hchanged : e.accountNumber ≠ some input.accountNumber ∨ e.bankCode ≠ some bank.code
    · refine Unnamed.regained ?_
      simp [bankDetailsCaptured, hchanged, Unnamed, truthy]
    · rw [decide_eq_false hchanged]
      exact (h e he).stays rfl rfl
  | resolved e name now hresolved he hnumber hcode hafter =>
    obtain rfl := Option.some.inj (hafter.symm.trans he')
    refine ⟨fun name' hname => ⟨d, by simp, ?_⟩, fun hc => absurd rfl hc⟩
    obtain rfl : name = name' := Option.some.inj (of_truthy hname)
    exact hresolved
  | rejected e message hlabel hfailed he hafter =>
    obtain rfl := Option.some.inj (hafter.symm.trans he')
    exact (h e he).stays rfl rfl
  | confirmed e given name now hconfirmed he hname hmatches hafter =>
    obtain rfl := Option.some.inj (hafter.symm.trans he')
    have hnamed := (h e he).named
    refine ⟨fun name' hn => ?_, fun _ => since_now ⟨name, given, hnamed name hname, hconfirmed, hmatches⟩⟩
    obtain ⟨r, hr, hresolved⟩ := hnamed name' hn
    exact ⟨r, List.mem_append_left _ hr, hresolved⟩
  | checked e documentType documentNumber result now hlabel hverified he hconfirmed hafter =>
    obtain rfl := Option.some.inj (hafter.symm.trans he')
    exact (h e he).stays (by unfold identityChecked; split <;> rfl) (by unfold identityChecked; split <;> rfl)
  | decided e decision reason now hlabel happroved he hafter =>
    obtain rfl := Option.some.inj (hafter.symm.trans he')
    exact (h e he).stays (by unfold reviewDecided; split <;> rfl) (by unfold reviewDecided; split <;> rfl)

/-- The rejection writes neither a name nor a confirmation. -/
lemma rejected_leaves (hd : Ends databaseFault (d.label.program toUpperCase id) d.before d.log d.result d.after)
    (hrejected : AccountRejected d) (he' : stored id d.after = some e') : ∃ e, stored id d.before = some e ∧
      e'.resolvedAccountName = e.resolvedAccountName ∧ e'.accountConfirmedAt = e.accountConfirmedAt := by
  obtain ⟨hlabel, hheard⟩ := hrejected
  rw [hlabel] at hd
  rcases ends_resolveAccount hd with ⟨hs, -, -⟩ | ⟨_, _, _, _, _, _, -, -, -, -, hnot, -, -⟩ |
    ⟨e, message, err, he, hs, -⟩
  · rw [hs] at he'
    exact ⟨e', he', rfl, rfl⟩
  · exact absurd hheard hnot
  · obtain rfl := Option.some.inj (hs.symm.trans he')
    exact ⟨e, he, rfl, rfl⟩

/-- Since the rejection. -/
lemma regained_history (hist : KycHistory toUpperCase id s₀ ds s) (hleft : ∀ d ∈ ds, NothingLeft id d) :
    ∀ before d after, ds = before ++ d :: after → AccountRejected d → ∀ e, stored id s = some e →
      Regained toUpperCase after e := by
  induction hist with
  | nil => exact fun before d after heq => by simp at heq
  | snoc hist hd ih =>
    intro before r after heq hrejected e he
    rcases eq_of_snoc heq with ⟨rfl, rfl, rfl⟩ | ⟨after', rfl, rfl⟩
    · obtain ⟨e₀, he₀, hname, hconfirmed⟩ := rejected_leaves hd hrejected he
      obtain ⟨hnone, hunconfirmed⟩ := hleft _ (by simp) hrejected e₀ he₀
      exact Unnamed.regained ⟨by rw [hname, hnone], by rw [hconfirmed, hunconfirmed]⟩
    · have hbefore := ih (fun d hd => hleft d (List.mem_append_left _ hd)) before r after' rfl hrejected
      exact regained_snoc (moves hd) hbefore he

/-- **An account the bank rejected stays unpaid** until it is resolved and confirmed again, in every sequence of
calls in which what the bank rejects has no name or confirmation left from before. -/
theorem rejected_stays_unpaid (hist : KycHistory toUpperCase id s₀ ds s) (hleft : ∀ d ∈ ds, NothingLeft id d) :
    StaysUnpaid toUpperCase id ds s := by
  intro before d after heq hrejected e he henabled
  simp only [toView, Bool.and_eq_true, Option.isSome_iff_ne_none] at henabled
  exact (regained_history hist hleft before d after heq hrejected e he).confirmed henabled.2

/-! ### Two histories -/

/-- The bank, when it knows no such account. -/
def rejecting : (q : Ask) → Except Err (Ans q)
  | .resolveAccount _ _ => .error (.accountResolution "Unknown account")
  | q => Money.agreeable q

abbrev performed (o : (q : Ask) → Except Err (Ans q)) (r : List KycDone × Db) (acts : List (KycOperation × Input)) :
    List KycDone × Db := perform (KycOperation.program asTyped (Money.uid 3)) o r.1 r.2 acts

/-- The bank rejects the account at first, and then resolves it. -/
def resolvedSecond : List KycDone × Db :=
  performed Money.agreeable (performed rejecting ([], justCreated)
    [(.submitBankDetails ⟨none, some "058", "0123456789"⟩, Money.inputAt 1), (.resolveAccount, Money.inputAt 2)])
    [(.resolveAccount, Money.inputAt 3), (.confirmAccount "ADA OBI", Money.inputAt 4),
      (.verifyIdentity .BVN "22222222222", Money.inputAt 5)]

def isRejection : Did App → Bool
  | .answered (.resolveAccount _ _) (.error (.accountResolution _)) => true
  | _ => false

lemma heardRejection_iff {log : List (Did App)} : HeardRejection log ↔ log.any isRejection = true := by
  rw [List.any_eq_true]
  constructor
  · rintro ⟨accountNumber, bankCode, message, hmem⟩
    exact ⟨_, hmem, rfl⟩
  · rintro ⟨d, hmem, hd⟩
    unfold isRejection at hd
    split at hd
    · exact ⟨_, _, _, hmem⟩
    · cases hd

theorem rejected_stays_unpaid_sample : KycHistory asTyped (Money.uid 3) justCreated resolvedSecond.1 resolvedSecond.2 ∧
    (∃ d ∈ resolvedSecond.1, HeardRejection d.log) ∧
    ((stored (Money.uid 3) resolvedSecond.2).map fun e => (toView e).payoutsEnabled) = some true ∧
    StaysUnpaid asTyped (Money.uid 3) resolvedSecond.1 resolvedSecond.2 := by
  have hist : KycHistory asTyped (Money.uid 3) justCreated resolvedSecond.1 resolvedSecond.2 :=
    history_perform _ (history_perform _ .nil)
  have hleft : (resolvedSecond.1.all fun d => !d.log.any isRejection || (stored (Money.uid 3) d.before).all fun e =>
      truthy e.resolvedAccountName == none && e.accountConfirmedAt == none) = true := by decide +kernel
  have hrejected : (resolvedSecond.1.any fun d => d.log.any isRejection) = true := by decide +kernel
  refine ⟨hist, ?_, by decide +kernel, rejected_stays_unpaid hist fun d hd hrejected e he => ?_⟩
  · obtain ⟨d, hd, hlog⟩ := List.any_eq_true.mp hrejected
    exact ⟨d, hd, heardRejection_iff.mpr hlog⟩
  · have hrow := List.all_eq_true.mp hleft d hd
    rw [heardRejection_iff.mp hrejected.2, he] at hrow
    simpa [Unnamed] using hrow

/-- The bank rejects an account it had resolved, and the entertainer confirms the name it had given. -/
def rejectedLater : List KycDone × Db :=
  performed rejecting (performed Money.agreeable ([], justCreated) wholeOnboarding)
    [(.resolveAccount, Money.inputAt 5), (.confirmAccount "ADA OBI", Money.inputAt 6),
      (.verifyIdentity .BVN "22222222222", Money.inputAt 7)]

theorem rejected_and_paid : KycHistory asTyped (Money.uid 3) justCreated rejectedLater.1 rejectedLater.2 ∧
    ¬StaysUnpaid asTyped (Money.uid 3) rejectedLater.1 rejectedLater.2 := by
  refine ⟨history_perform _ (history_perform _ .nil), fun hunpaid => ?_⟩
  obtain ⟨ds, hds, hlabels⟩ := perform_labels (KycOperation.program asTyped (Money.uid 3)) rejecting
    [(.resolveAccount, Money.inputAt 5), (.confirmAccount "ADA OBI", Money.inputAt 6),
      (.verifyIdentity .BVN "22222222222", Money.inputAt 7)]
    (performed Money.agreeable ([], justCreated) wholeOnboarding).1
    (performed Money.agreeable ([], justCreated) wholeOnboarding).2
  simp only [List.map_cons, List.map_nil, List.map_eq_cons_iff, List.map_eq_nil_iff] at hlabels
  obtain ⟨resolve, _, rfl, hresolve, confirm, _, rfl, hconfirm, verify, _, rfl, hverify, rfl⟩ := hlabels
  have hheard : (rejectedLater.1[4]?.any fun d => d.log.any isRejection) = true := by decide +kernel
  have hlength : (performed Money.agreeable ([], justCreated) wholeOnboarding).1.length = 4 := by decide +kernel
  have henabled : ((stored (Money.uid 3) rejectedLater.2).any fun e => (toView e).payoutsEnabled) = true := by
    decide +kernel
  have hrejected : AccountRejected resolve := by
    rw [show rejectedLater.1 = _ from hds, List.getElem?_append_right hlength.le, hlength] at hheard
    exact ⟨hresolve, heardRejection_iff.mpr hheard⟩
  obtain ⟨e, he, hpaid⟩ := (Option.any_eq_true _ _).mp henabled
  obtain ⟨before, c, rest, heq, ⟨name, given, ⟨r, hr, hresolved⟩, -⟩, -⟩ :=
    hunpaid _ resolve [confirm, verify] hds hrejected e he hpaid
  have hmem : r ∈ [confirm, verify] := heq ▸ List.mem_append_left _ hr
  have hlabel := hresolved.2.1
  simp only [List.mem_cons, List.not_mem_nil, or_false] at hmem
  rcases hmem with rfl | rfl
  · rw [hconfirm] at hlabel
    cases hlabel
  · rw [hverify] at hlabel
    cases hlabel

end Splitcore.Onboarding
