import Splitcore.Money.Spared
import Splitcore.Onboarding.Destinations

/-!
The flow of entertainers, whose bank columns the onboarding steps and the admins' edits both
write and payouts read. Every call keeps to it.
-/

namespace Splitcore.Onboarding

open Relational Interleaving Confirmation Money Ledger

variable (toUpperCase : String → String)

/-! ### Calls on entertainers -/

inductive Call where
  | create (dto : CreateEntertainer)
  | update (id : Uuid) (dto : UpdateEntertainer)
  | deactivate (id : Uuid)
  | submitBankDetails (entertainerId : Uuid) (input : BankDetails)
  | resolveAccount (entertainerId : Uuid)
  | confirmAccount (entertainerId : Uuid) (confirmedName : String)
  | verifyIdentity (entertainerId : Uuid) (documentType : IdentityDocumentType)
      (documentNumber : String)
  | decideReview (entertainerId : Uuid) (decision : ReviewDecision) (reason : String)
  | processPayout (payoutId : Uuid)
deriving DecidableEq

def Call.program : Call → Prog App Unit
  | .create dto => do let _ ← Onboarding.create dto
  | .update id dto => do let _ ← Onboarding.update id dto
  | .deactivate id => do let _ ← Onboarding.deactivate id
  | .submitBankDetails id input => do let _ ← Onboarding.submitBankDetails toUpperCase id input
  | .resolveAccount id => do let _ ← Onboarding.resolveAccount id
  | .confirmAccount id name => do let _ ← Onboarding.confirmAccount toUpperCase id name
  | .verifyIdentity id documentType documentNumber => do
    let _ ← Onboarding.verifyIdentity id documentType documentNumber
  | .decideReview id decision reason => do let _ ← Onboarding.decideReview id decision reason
  | .processPayout payoutId => Money.processPayout payoutId

def Call.confirmedName : Call → Option String
  | .confirmAccount _ name => some name
  | _ => none

def Call.edit : Call → Option UpdateEntertainer
  | .update _ dto => some dto
  | _ => none

/-! ### The flow of entertainers -/

def entertainerView (id : Uuid) (db : Db) : Option Destination :=
  (db.entertainers.find (·.id == id)).map entertainerRecord

def entertainerPending (g : Heard Call) :
    Site → Input → Option (Uuid × (Destination → DestinationWrite))
  | .submitBankDetails id accountNumber bankCode changed, _ =>
    some (id, fun _ => .enter (some accountNumber, some bankCode) !changed)
  | .resolveAccount id, _ => g.told.map fun (about, name) => (id, fun _ => .note about name)
  | .confirmAccount id, w => g.label.confirmedName.map fun name => (id, fun _ => .confirm name w.now)
  | .entertainerUpdate id, _ => g.label.edit.map fun dto =>
    (id, fun d => .enter (dto.accountNumber.getD d.details.1, d.details.2) true)
  | _, _ => none

def entertainerChecked : Site → Bool
  | .submitBankDetails _ _ _ _ | .resolveAccount _ | .confirmAccount _ => true
  | _ => false

def bankOf (e : Entertainer) : Option String × Option String := (e.bankName, e.bankCode)

/-- A bank code is the one there was or one from the list, and its name with it, unless an admin
edits the name. -/
def Banked (g : Heard Call) (site : Site) (s s' : Db) : Prop :=
  ∀ id e', s'.entertainers.find (·.id == id) = some e' → e'.bankCode = none ∨
    (∃ e, s.entertainers.find (·.id == id) = some e ∧ bankOf e' = bankOf e) ∨
    (∃ bank ∈ g.banks, bankOf e' = (some bank.name, some bank.code)) ∨
    ∃ dto e, g.label.edit = some dto ∧ site = .entertainerUpdate id ∧
      s.entertainers.find (·.id == id) = some e ∧
      bankOf e' = (dto.bankName.getD e.bankName, e.bankCode)

/-- For an entertainer, the recipient is where the entertainer the payout read is paid. -/
def Addressed (g : Heard Call) (params : RecipientParams) : Prop :=
  params.accountType = .ENTERTAINER_PAYABLE → ∃ e, g.owner = some e ∧ params.ownerId = some e.id ∧
    ∃ name reason, entertainerDestination (some e) =
      .send name params.bankCode params.accountNumber reason

def SendsWhereAddressed (g : Heard Call) : Ask → Prop
  | .initiateTransfer transfer => ∃ params, g.recipient = some (params, transfer.recipientCode) ∧
      Addressed g params
  | _ => True

def entertainerFlow : Flow Call where
  view := entertainerView
  submitted := Call.confirmedName
  confirms := .confirmAccount
  pending := entertainerPending
  checked := entertainerChecked
  also := Banked
  asks := SendsWhereAddressed
  also_refl _ _ _ _ e' he := .inr (.inl ⟨e', he, rfl⟩)
  backed {g site w id write r} h := by
    unfold entertainerPending at h
    split at h
    · cases h; trivial
    · obtain ⟨⟨about, name⟩, htold, heq⟩ := Option.map_eq_some_iff.mp h
      cases heq; exact htold
    · obtain ⟨name, hname, heq⟩ := Option.map_eq_some_iff.mp h
      cases heq; exact ⟨hname, rfl, rfl⟩
    · obtain ⟨dto, -, heq⟩ := Option.map_eq_some_iff.mp h
      cases heq; trivial
    · cases h

section Entertainers

variable {toUpperCase} {α β : Type} {g : Heard Call} {site : Site} {w : Input} {s s' : Db}
  {σ σ' : Db × ℕ} {id : Uuid} {e' : Entertainer} {f : Entertainer → Entertainer}

/-- The statement leaves entertainers alone. -/
lemma acts_same (h : s'.entertainers = s.entertainers) :
    Acts entertainerFlow (Matches toUpperCase) g site w s s' :=
  .same fun id => by simp only [entertainerFlow, entertainerView, h]

lemma banked_same (h : s'.entertainers = s.entertainers) : Banked g site s s' :=
  fun _ e' he => .inr (.inl ⟨e', h ▸ he, rfl⟩)

/-- One entertainer was updated, within the checks of the table. -/
def Updated (id : Uuid) (f : Entertainer → Entertainer) (s s' : Db) : Prop :=
  ∃ e, s.entertainers.find (·.id == id) = some e ∧ entertainerChecks (f e) = true ∧
    ∀ id', s'.entertainers.find (·.id == id') =
      if id' = id then some (f e) else s.entertainers.find (·.id == id')

lemma updateEntertainer_ok (h : updateEntertainer id f w σ = .ok (e', σ'))
    (hid : ∀ e, (f e).id = e.id) : Updated id f σ.1 σ'.1 := by
  obtain ⟨e, he, -, hcheck, hfind⟩ := Model.updateOne_find hid h
  exact ⟨e, he, hcheck, hfind⟩

lemma updateEntertainer_run (h : (updateEntertainer id f).run w s = .ok (e', s'))
    (hid : ∀ e, (f e).id = e.id) : Updated id f s s' := by
  obtain ⟨n, h⟩ := Tx.run_ok.mp h
  exact updateEntertainer_ok h hid

/-- The update makes the statement's write. -/
lemma Updated.wrote (h : Updated id f s s') {write : Destination → DestinationWrite}
    (hpending : entertainerPending g site w = some (id, write))
    (happly : ∀ e, entertainerChecks (f e) = true →
      (write (entertainerRecord e)).apply (entertainerRecord e) = some (entertainerRecord (f e)))
    (hchecked : entertainerChecked site = true → ∃ e, g.seen.entertainers.find (·.id == id) = some e ∧
      (write (entertainerRecord e)).Current (Matches toUpperCase) (entertainerRecord e)) :
    Acts entertainerFlow (Matches toUpperCase) g site w s s' := by
  obtain ⟨e, he, hcheck, hfind⟩ := h
  refine .wrote id write (entertainerRecord e) (entertainerRecord (f e)) hpending ?_ (happly e hcheck)
    ?_ (fun id' hne => ?_) fun hc => ?_
  · simp [entertainerFlow, entertainerView, he]
  · simp [entertainerFlow, entertainerView, hfind]
  · simp [entertainerFlow, entertainerView, hfind, hne]
  · obtain ⟨read, hread, hcur⟩ := hchecked hc
    exact ⟨_, by simp [entertainerFlow, entertainerView, hread], hcur⟩

/-- The update leaves the destination. -/
lemma Updated.same (h : Updated id f s s')
    (hsame : ∀ e, entertainerRecord (f e) = entertainerRecord e) :
    Acts entertainerFlow (Matches toUpperCase) g site w s s' := by
  obtain ⟨e, he, -, hfind⟩ := h
  refine .same fun id' => ?_
  by_cases hne : id' = id
  · subst hne; simp [entertainerFlow, entertainerView, hfind, he, hsame]
  · simp [entertainerFlow, entertainerView, hfind, hne]

lemma Updated.banked (h : Updated id f s s')
    (hbank : (∀ e, bankOf (f e) = bankOf e) ∨
      (∃ bank ∈ g.banks, ∀ e, bankOf (f e) = (some bank.name, some bank.code)) ∨
      ∃ dto, g.label.edit = some dto ∧ site = .entertainerUpdate id ∧
        ∀ e, bankOf (f e) = (dto.bankName.getD e.bankName, e.bankCode)) :
    Banked g site s s' := by
  obtain ⟨e, he, -, hfind⟩ := h
  intro id' row hrow
  rw [hfind] at hrow
  by_cases hne : id' = id
  · subst hne
    rw [if_pos rfl] at hrow
    obtain rfl := Option.some.inj hrow
    rcases hbank with hsame | ⟨bank, hmem, hb⟩ | ⟨dto, hedit, hsite, hb⟩
    · exact .inr (.inl ⟨e, he, hsame e⟩)
    · exact .inr (.inr (.inl ⟨bank, hmem, hb e⟩))
    · exact .inr (.inr (.inr ⟨dto, e, hedit, hsite, he, hb e⟩))
  · rw [if_neg hne] at hrow
    exact .inr (.inl ⟨row, hrow, rfl⟩)

/-! ### Onboarding keeps to the flow -/

/-- The call keeps to the flow of entertainers. -/
abbrev OnCourse (toUpperCase : String → String) (p : Prog App α) (g : Heard Call) : Prop :=
  Attends entertainerFlow (Matches toUpperCase) p g

lemma course_find {k : Entertainer → Prog App β} (h : ∀ e s, s.entertainers.find (·.id == id) = some e →
    OnCourse toUpperCase (k e) { g with seen := s }) : OnCourse toUpperCase (find id >>= k) g := by
  unfold find
  simp only [Prog.bind_eq, Prog.bind_assoc]
  refine attends_query fun w s => ?_
  rcases he : s.entertainers.find (·.id == id) with _ | e
  · trivial
  · exact h e s he

lemma course_notSuspended {e : Entertainer} {k : Unit → Prog App β}
    (h : OnCourse toUpperCase (k ()) g) : OnCourse toUpperCase (assertNotSuspended e >>= k) g := by
  unfold assertNotSuspended
  split
  · trivial
  · exact h

theorem submitBankDetails_course {input : BankDetails} :
    OnCourse toUpperCase (submitBankDetails toUpperCase id input) g := by
  refine course_find fun e s he => course_notSuspended ?_
  refine attends_request trivial fun banks => attends_ofExcept fun bank hbank => ?_
  refine attends_statement fun w db row db' hm => ?_
  rw [Tx.run_now] at hm
  have hupd := updateEntertainer_run hm fun row => by
    unfold bankDetailsCaptured; split <;> rfl
  refine ⟨hupd.wrote rfl (fun row _ => ?_) fun _ => ⟨e, he, ?_⟩,
    hupd.banked (.inr (.inl ⟨bank, resolveBank_mem hbank, fun row => ?_⟩)), trivial⟩
  · unfold bankDetailsCaptured
    split <;> rename_i hchanged <;> simp [hchanged, Write.apply, entertainerRecord]
  · by_cases hchanged : e.accountNumber ≠ some input.accountNumber ∨ e.bankCode ≠ some bank.code
    · simp [hchanged, Write.Current]
    · rw [decide_eq_false hchanged]
      simp only [not_or, not_not] at hchanged
      exact .inl (Prod.ext hchanged.1 hchanged.2)
  · unfold bankDetailsCaptured; split <;> rfl

/-- A statement that updates neither the destination nor the bank. -/
lemma course_update {k : Entertainer → Prog App β} {f : Time → Entertainer → Entertainer}
    (hid : ∀ t e, (f t e).id = e.id) (hrecord : ∀ t e, entertainerRecord (f t e) = entertainerRecord e)
    (hbank : ∀ t e, bankOf (f t e) = bankOf e) (hk : ∀ e g, OnCourse toUpperCase (k e) g) :
    OnCourse toUpperCase (statement site (do
      let now ← Tx.now
      updateEntertainer id (f now)) >>= k) g :=
  attends_statement fun w s e' s' hm => by
    rw [Tx.run_now] at hm
    have hupd := updateEntertainer_run hm (hid _)
    exact ⟨hupd.same (hrecord _), hupd.banked (.inl (hbank _)), hk _ _⟩

lemma resolveWithBank_course {accountNumber bankCode : String} {e : Entertainer}
    (he : g.seen.entertainers.find (·.id == id) = some e)
    (haccount : e.accountNumber = some accountNumber) (hbank : e.bankCode = some bankCode)
    {Q : Heard Call → Except Err Entertainer → Prop} (hok : ∀ g e, Q g (.ok e))
    (herr : ∀ g e, Q g (.error e)) :
    Obeys (attending entertainerFlow (Matches toUpperCase)) Q
      (resolveWithBank id accountNumber bankCode) g := by
  refine obeys_bind.mpr (obeys_request trivial fun answer => ?_)
  rcases answer with err | resolved
  · exact herr _ err
  refine attends_command (fun w s e' s' hm => ?_) herr
  rw [Tx.run_now] at hm
  have hupd := updateEntertainer_run hm fun _ => rfl
  refine ⟨hupd.wrote rfl (fun _ _ => rfl) fun _ => ⟨e, he, ?_⟩, hupd.banked (.inl fun _ => rfl),
    hok _ _⟩
  exact Prod.ext haccount hbank

theorem resolveAccount_course : OnCourse toUpperCase (resolveAccount id) g := by
  refine course_find fun e s he => course_notSuspended ?_
  split
  · rename_i accountNumber bankCode haccount hbank
    refine attends_attempt (resolveWithBank_course he (of_truthy haccount) (of_truthy hbank)
      (fun _ _ => trivial) fun g err => ?_)
    cases err with
    | accountResolution message =>
      refine attends_statement fun w s e' s' hm => ?_
      have hupd := updateEntertainer_run hm fun _ => rfl
      exact ⟨hupd.same fun _ => rfl, hupd.banked (.inl fun _ => rfl), trivial⟩
    | _ => trivial
  · trivial

theorem confirmAccount_course {confirmedName : String} (hlabel : g.label.confirmedName = some confirmedName) :
    OnCourse toUpperCase (confirmAccount toUpperCase id confirmedName) g := by
  refine course_find fun e s he => course_notSuspended ?_
  split
  · trivial
  rename_i resolvedAccountName hresolved
  split
  · trivial
  rename_i hmatches
  refine attends_statement fun w db e' db' hm => ?_
  rw [Tx.run_now] at hm
  have hupd := updateEntertainer_run hm fun _ => rfl
  have hpending : entertainerPending { g with seen := s } (.confirmAccount id) w =
      some (id, fun _ => .confirm confirmedName w.now) := by
    simp [entertainerPending, hlabel]
  refine ⟨hupd.wrote hpending (fun row hcheck => ?_) fun _ => ⟨e, he, fun name hname => ?_⟩,
    hupd.banked (.inl fun _ => rfl), trivial⟩
  · -- the CHECK lets nobody confirm what was never resolved
    have hsome : row.resolvedAccountName.isSome = true := by
      simp only [entertainerChecks, Bool.and_eq_true] at hcheck
      simpa using hcheck.1
    simp [Write.apply, entertainerRecord, hsome]
  · obtain rfl : resolvedAccountName = name :=
      Option.some.inj ((of_truthy hresolved).symm.trans hname)
    exact not_not.mp hmatches

lemma identityChecked_same {documentType : IdentityDocumentType} {result : IdentityCheckResult}
    {now : Time} {e : Entertainer} : (identityChecked documentType result now e).id = e.id ∧
      entertainerRecord (identityChecked documentType result now e) = entertainerRecord e ∧
      bankOf (identityChecked documentType result now e) = bankOf e := by
  unfold identityChecked
  split <;> exact ⟨rfl, rfl, rfl⟩

theorem verifyIdentity_course {documentType : IdentityDocumentType} {documentNumber : String} :
    OnCourse toUpperCase (verifyIdentity id documentType documentNumber) g := by
  refine course_find fun e s he => course_notSuspended ?_
  split
  · trivial
  split
  · trivial
  refine attends_request trivial fun result => ?_
  exact course_update (fun _ _ => identityChecked_same.1) (fun _ _ => identityChecked_same.2.1)
    (fun _ _ => identityChecked_same.2.2) fun _ _ => trivial

lemma reviewDecided_same {decision : ReviewDecision} {reason : String} {now : Time}
    {e : Entertainer} : (reviewDecided decision reason now e).id = e.id ∧
      entertainerRecord (reviewDecided decision reason now e) = entertainerRecord e ∧
      bankOf (reviewDecided decision reason now e) = bankOf e := by
  unfold reviewDecided
  split <;> exact ⟨rfl, rfl, rfl⟩

theorem decideReview_course {decision : ReviewDecision} {reason : String} :
    OnCourse toUpperCase (decideReview id decision reason) g := by
  refine course_find fun e s he => ?_
  split
  · trivial
  split
  · trivial
  exact course_update (fun _ _ => reviewDecided_same.1) (fun _ _ => reviewDecided_same.2.1)
    (fun _ _ => reviewDecided_same.2.2) fun _ _ => trivial

/-! ### The admins' edits keep to the flow -/

theorem create_course {dto : CreateEntertainer} : OnCourse toUpperCase (create dto) g := by
  refine attends_attempt (attends_command (fun w s e' s' hm => ?_) fun g err => ?_)
  · obtain ⟨n, hm⟩ := Tx.run_ok.mp hm
    simp only [Tx.bind_ok, Tx.freshId_ok, Tx.pure_ok] at hm
    obtain ⟨_, _, ⟨rfl, rfl⟩, ⟨⟩, σ₂, hins, -, rfl⟩ := hm
    obtain ⟨t, ht, h⟩ := Model.create_ok hins
    obtain rfl : s' = { s with entertainers := t } := congrArg Prod.fst h
    replace ht : s.entertainers.insert (created dto (w.uuid 0)) = some t := ht
    have hfind : ∀ id, t.find (·.id == id) = if id = w.uuid 0 then some (created dto (w.uuid 0))
        else s.entertainers.find (·.id == id) := fun id => by
      rw [Table.find, Table.rows_insert ht, List.find?_append]
      by_cases hid : id = w.uuid 0
      · subst hid
        -- a fresh id is nobody's
        have hnone : s.entertainers.rows.find? (·.id == w.uuid 0) = none := by
          rw [List.find?_eq_none]
          intro row hrow hkey
          refine Table.insert_fresh (k := .id (w.uuid 0)) ht hrow ?_ (by simp [Indexed.keys, created])
          simp only [beq_iff_eq] at hkey
          simp [Indexed.keys, hkey]
        rw [hnone]; simp [created]
      · have hne : ((created dto (w.uuid 0)).id == id) = false := by
          simpa [created] using Ne.symm hid
        simp [hid, hne, Table.find]
    refine ⟨.added (w.uuid 0) ⟨(dto.accountNumber, none), none, none⟩ ?_ ⟨rfl, rfl⟩
      (fun id hid => ?_), fun id row hrow => ?_, trivial⟩
    · simp [entertainerFlow, entertainerView, hfind, entertainerRecord, created]
    · simp [entertainerFlow, entertainerView, hfind, hid]
    · by_cases hid : id = w.uuid 0
      · rw [hfind, if_pos hid] at hrow
        obtain rfl := Option.some.inj hrow
        exact .inl rfl
      · rw [hfind, if_neg hid] at hrow
        exact .inr (.inl ⟨row, hrow, rfl⟩)
  · cases err <;> trivial

theorem update_course {dto : UpdateEntertainer} (hlabel : g.label.edit = some dto) :
    OnCourse toUpperCase (update id dto) g := by
  refine attends_attempt (attends_command (fun w s e' s' hm => ?_) fun g err => ?_)
  · obtain ⟨n, hm⟩ := Tx.run_ok.mp hm
    simp only [Tx.bind_ok, venueIds, Tx.read_ok, Tx.pure_ok] at hm
    obtain ⟨row, σ₁, hupd, venues, _, ⟨-, rfl⟩, -, rfl⟩ := hm
    have hupdated := updateEntertainer_ok hupd fun _ => rfl
    have hpending : entertainerPending g (.entertainerUpdate id) w = some (id, fun d =>
        .enter (dto.accountNumber.getD d.details.1, d.details.2) true) := by
      simp [entertainerPending, hlabel]
    exact ⟨hupdated.wrote hpending (fun _ _ => rfl) (fun h => by cases h),
      hupdated.banked (.inr (.inr ⟨dto, hlabel, rfl, fun _ => rfl⟩)), trivial⟩
  · cases err <;> trivial

theorem deactivate_course : OnCourse toUpperCase (deactivate id) g := by
  refine attends_attempt (attends_command (fun w s e' s' hm => ?_) fun g err => ?_)
  · obtain ⟨n, hm⟩ := Tx.run_ok.mp hm
    simp only [Tx.bind_ok, venueIds, Tx.read_ok, Tx.pure_ok] at hm
    obtain ⟨row, σ₁, hupd, venues, _, ⟨-, rfl⟩, count, σ₂, hqr, -, rfl⟩ := hm
    have hrows : s'.entertainers = σ₁.1.entertainers :=
      Model.updateMany_leaves (fun _ _ => rfl) w σ₁ count _ hqr
    have hupdated := updateEntertainer_ok hupd fun _ => rfl
    unfold Updated at hupdated
    rw [← hrows] at hupdated
    exact ⟨Updated.same hupdated fun _ => rfl, Updated.banked hupdated (.inl fun _ => rfl), trivial⟩
  · cases err <;> trivial

/-! ### Payouts keep to the flow -/

lemma besideEntertainers : BesideBooks Db.entertainers := fun _ _ _ _ _ => rfl

/-- What leaves entertainers alone and sends no transfer. -/
lemma spares_course {p : Prog App α} (h : SparesBeside Db.entertainers p) :
    OnCourse toUpperCase p g :=
  Obeys.mono (obeys_of_spares (I := fun _ => True) h
    (fun _ _ _ _ _ _ _ heq => ⟨⟨acts_same heq, banked_same heq⟩, trivial⟩)
    (fun _ _ _ _ _ => trivial)
    (fun g q _ hq => ⟨(by cases q <;> trivial), trivial⟩)
    (fun _ _ _ _ _ => trivial) trivial) fun _ _ _ => trivial

/-- The recipient is created, and then the transfer is made to it. -/
lemma sendTransfer_course {payout : Payout} {account : LedgerAccount}
    {name bankCode accountNumber reason : String}
    (haddr : Addressed g ⟨name, accountNumber, bankCode, account.ownerId, account.type⟩) :
    OnCourse toUpperCase (sendTransfer payout account name bankCode accountNumber reason) g := by
  refine attends_request trivial fun code => ?_
  refine attends_statement fun w s u s' hm => ?_
  have hrows : s'.entertainers = s.entertainers :=
    Tx.Leaves.run (Tx.leaves_now fun _ => Model.update_leaves fun _ _ => rfl) hm
  refine ⟨acts_same hrows, banked_same hrows, ?_⟩
  refine attends_request ⟨_, rfl, haddr⟩ fun transfer => ?_
  exact spares_course (transferAnswered_spares besideEntertainers)

/-- What follows once the destination is known, and for an entertainer was read. -/
lemma destination_course {payout : Payout} {account : LedgerAccount}
    {destination : PayoutDestination} (haddr : ∀ name bankCode accountNumber reason,
      destination = .send name bankCode accountNumber reason →
      Addressed g ⟨name, accountNumber, bankCode, account.ownerId, account.type⟩) :
    OnCourse toUpperCase (match destination with
      | .review reason => markForReview payout.id reason
      | .hold _ => hold payout
      | .send recipientName bankCode accountNumber transferReason => do
        let count ← claimAttempt payout
        if count = 0 then pure ()
        else sendTransfer payout account recipientName bankCode accountNumber transferReason) g := by
  cases destination with
  | review reason => exact spares_course (markForReview_spares besideEntertainers)
  | hold reason => exact spares_course (hold_spares besideEntertainers)
  | send name bankCode accountNumber reason =>
    refine attends_statement fun w s count s' hm => ?_
    have hrows : s'.entertainers = s.entertainers :=
      Tx.Leaves.run (Tx.leaves_now fun _ => Model.updateMany_leaves fun _ _ => rfl) hm
    refine ⟨acts_same hrows, banked_same hrows, ?_⟩
    split
    · trivial
    · exact sendTransfer_course (haddr _ _ _ _ rfl)

lemma newAttempt_course {payout : Payout} {account : LedgerAccount} :
    OnCourse toUpperCase (newAttempt payout account) g := by
  unfold newAttempt resolveDestination
  split
  · exact spares_course (markForReview_spares besideEntertainers)
  · rename_i ownerId howner htype
    refine attends_query fun w s => destination_course fun name bankCode accountNumber reason
      hsend => ?_
    change entertainerDestination (s.entertainers.find (·.id == ownerId)) = _ at hsend
    rcases he : s.entertainers.find (·.id == ownerId) with _ | e
    · rw [he] at hsend; cases hsend
    · rw [he] at hsend
      have hid : e.id = ownerId := by simpa using Table.of_find he
      exact fun _ => ⟨e, he, by rw [howner, hid], name, reason, hsend⟩
  · rename_i ownerId howner htype
    exact attends_query fun w s => destination_course fun _ _ _ _ _ hpayable =>
      absurd (htype.symm.trans hpayable) (by decide)
  · exact spares_course (markForReview_spares besideEntertainers)

theorem processPayout_course {payoutId : Uuid} : OnCourse toUpperCase (processPayout payoutId) g := by
  refine attends_query fun w s => ?_
  rcases payoutWithAccount (·.id == payoutId) s with _ | ⟨payout, account⟩
  · trivial
  simp only
  split
  · trivial
  split
  · exact newAttempt_course
  refine attends_request trivial fun previous => ?_
  cases previous with
  | success => exact spares_course (markSucceeded_spares besideEntertainers)
  | pending => trivial
  | requires_action => exact spares_course (flagForOperator_spares besideEntertainers)
  | failed => exact newAttempt_course
  | reversed => exact newAttempt_course
  | not_found => exact newAttempt_course

theorem program_course (call : Call) (db : Db) :
    OnCourse toUpperCase (call.program toUpperCase) { label := call, seen := db } := by
  cases call with
  | create dto => exact attends_void create_course
  | update id dto => exact attends_void (update_course rfl)
  | deactivate id => exact attends_void deactivate_course
  | submitBankDetails id input => exact attends_void submitBankDetails_course
  | resolveAccount id => exact attends_void resolveAccount_course
  | confirmAccount id name => exact attends_void (confirmAccount_course rfl)
  | verifyIdentity id documentType documentNumber => exact attends_void verifyIdentity_course
  | decideReview id decision reason => exact attends_void decideReview_course
  | processPayout payoutId => exact processPayout_course

end Entertainers

end Splitcore.Onboarding
