import Splitcore.Onboarding.Confirmed

/-!
Calls on entertainers one after another, payouts among them.

Nobody writes between what a call reads and what it writes, so every checked write is current.
The admins' edit is not checked: it writes the bank columns of a confirmed destination as it
likes.
-/

namespace Splitcore.Onboarding

open Relational Interleaving Confirmation Money

variable {toUpperCase : String → String}

/-- A call starts when no other is under way. -/
def OneAtATime (p : Pool App Call Unit) (ev : Event App Call Db) : Prop :=
  ∀ call, ev = .start call → ∀ i, p.live i = none

/-- An edit leaves the account number of a resolved account, and the bank name of a bank whose
code is stored. -/
def EditsKeepBank (p : Pool App Call Unit) (ev : Event App Call Db) : Prop :=
  ∀ i, executes ev = some i → ∀ r id eff k dto, p.live i = some r →
    r.prog = .stmt (.entertainerUpdate id) eff k → r.label.edit = some dto →
    ∀ e, p.store.entertainers.find (·.id == id) = some e →
      (e.resolvedAccountName ≠ none → dto.accountNumber.getD e.accountNumber = e.accountNumber) ∧
      (e.bankCode ≠ none → dto.bankName.getD e.bankName = e.bankName)

/-! ### Confirmed destinations -/

/-- The confirmed name of the entertainer's account agreed with what the bank gave for it. -/
def NameConfirmed (toUpperCase : String → String) (p : Pool App Call Unit) (entertainerId : Uuid)
    (accountNumber bankCode name : String) (t : Time) : Prop :=
  BankSaid p (some accountNumber, some bankCode) name ∧
    Agreed entertainerFlow (Matches toUpperCase) p entertainerId t name

/-- What is stored with a confirmation. -/
def Confirmed (toUpperCase : String → String) (p : Pool App Call Unit) (e : Entertainer) : Prop :=
  ∀ t, e.accountConfirmedAt = some t → ∃ accountNumber bankCode bankName name,
    e.accountNumber = some accountNumber ∧ e.bankCode = some bankCode ∧
    e.bankName = some bankName ∧ e.resolvedAccountName = some name ∧
    NameConfirmed toUpperCase p e.id accountNumber bankCode name t ∧ BankListed p ⟨bankName, bankCode⟩

/-- Every transfer of the run went to the recipient it created; an entertainer's recipient is an
account whose holder's name was confirmed. -/
def PaysConfirmed (toUpperCase : String → String) (p : Pool App Call Unit) (r : Run App Call) : Prop :=
  ∀ transfer, .asked (.initiateTransfer transfer) ∈ r.log → ∃ params,
    .answered (.createRecipient params) (.ok transfer.recipientCode) ∈ r.log ∧
    (params.accountType = .ENTERTAINER_PAYABLE → ∃ ownerId name t, params.ownerId = some ownerId ∧
      NameConfirmed toUpperCase p ownerId params.accountNumber params.bankCode name t)

variable {p p' : Pool App Call Unit} {ev : Event App Call Db} {e : Entertainer} {r r' : Run App Call}

lemma NameConfirmed.extends {id : Uuid} {accountNumber bankCode name : String} {t : Time}
    (h : NameConfirmed toUpperCase p id accountNumber bankCode name t) (hp : Extends p p') :
    NameConfirmed toUpperCase p' id accountNumber bankCode name t :=
  ⟨h.1.extends hp, h.2.extends hp⟩

lemma Confirmed.extends (h : Confirmed toUpperCase p e) (hp : Extends p p') :
    Confirmed toUpperCase p' e := fun t ht => by
  obtain ⟨accountNumber, bankCode, bankName, name, h1, h2, h3, h4, hname, hlisted⟩ := h t ht
  exact ⟨accountNumber, bankCode, bankName, name, h1, h2, h3, h4, hname.extends hp,
    hlisted.extends hp⟩

/-- Where an entertainer is paid, once confirmed, is the confirmed account. -/
lemma Confirmed.destination (h : Confirmed toUpperCase p e) {name bankCode accountNumber reason : String}
    (hsend : entertainerDestination (some e) = .send name bankCode accountNumber reason) :
    ∃ holder t, NameConfirmed toUpperCase p e.id accountNumber bankCode holder t := by
  simp only [entertainerDestination] at hsend
  split at hsend
  · cases hsend
  rename_i hgate
  simp only [not_or] at hgate
  obtain ⟨t, ht⟩ := Option.ne_none_iff_exists'.mp hgate.2
  obtain ⟨storedNumber, storedCode, bankName, holder, h1, h2, -, -, hname, -⟩ := h t ht
  split at hsend
  · rename_i bank number hbank hnumber
    split at hsend
    · cases hsend
    · rename_i code hcode
      rw [h2] at hcode
      have hnumber' := h1.symm.trans (of_truthy hnumber)
      have hcode' : some storedCode = some code := of_truthy hcode
      simp only [PayoutDestination.send.injEq, Option.some.injEq] at hsend hnumber' hcode'
      obtain ⟨-, rfl, rfl, -⟩ := hsend
      subst hnumber' hcode'
      exact ⟨holder, t, hname⟩
  · cases hsend

/-! ### The invariant -/

/-- What is known of the entertainers while calls follow one another: the flow is kept, one call
at a time is under way and has seen every destination as it is, and bank names are banks' names;
what payouts read was confirmed, and so is what they paid. -/
structure InSequence (toUpperCase : String → String) (p : Pool App Call Unit) : Prop where
  attended : Attended entertainerFlow (Matches toUpperCase) p
  alone : ∀ i j r r', p.live i = some r → p.live j = some r' → i = j
  fresh : ∀ i r, p.live i = some r → ∀ id, entertainerView id p.store =
    entertainerView id ((attending entertainerFlow (Matches toUpperCase)).at_ r).seen
  listed : ∀ id e, p.store.entertainers.find (·.id == id) = some e → ∀ code, e.bankCode = some code →
    ∃ name, e.bankName = some name ∧ BankListed p ⟨name, code⟩
  owners : ∀ r ∈ p.runs, ∀ e,
    ((attending entertainerFlow (Matches toUpperCase)).at_ r).owner = some e → Confirmed toUpperCase p e
  pays : ∀ r ∈ p.runs, PaysConfirmed toUpperCase p r

/-- A stored entertainer's confirmation. -/
lemma InSequence.confirmed (h : InSequence toUpperCase p) {id : Uuid}
    (he : p.store.entertainers.find (·.id == id) = some e) : Confirmed toUpperCase p e := by
  intro t ht
  have hid : e.id = id := by simpa using Table.of_find he
  have hview : entertainerView id p.store = some (entertainerRecord e) := by
    rw [entertainerView, he]; rfl
  obtain ⟨name, hname, hsaid, hagreed⟩ := (h.attended.sound id _ hview).confirmed ht
  obtain ⟨r, hr, accountNumber, bankCode, resolved, habout, hn, hlog⟩ := hsaid
  obtain ⟨h1, h2⟩ := Prod.mk.inj habout
  obtain ⟨bankName, h3, hlisted⟩ := h.listed id e he bankCode h2
  refine ⟨accountNumber, bankCode, bankName, name, h1, h2, h3, hname, ⟨?_, ?_⟩, hlisted⟩
  · exact ⟨r, hr, accountNumber, bankCode, resolved, rfl, hn, hlog⟩
  · rw [hid]; exact hagreed

/-! ### One event -/

section Step

variable (h : InSequence toUpperCase p)
  (hs : step (entertainerAccounts toUpperCase fun _ => true) p ev = some p')
include h hs

/-- What the event did to the store. -/
lemma InSequence.store : (∃ i r site w, executes ev = some i ∧
      Monitor.Executed (attending entertainerFlow (Matches toUpperCase)) p p' i r site w) ∨
    executes ev = none ∧ ∀ id, (p'.store.entertainers.find (·.id == id)).map entertainerKey =
      (p.store.entertainers.find (·.id == id)).map entertainerKey := by
  have hrely : (attending entertainerFlow (Matches toUpperCase)).Relies p ev := by
    cases ev <;> simp [Monitor.Relies, attending]
  rcases h.attended.watched.step_store hrely hs with hdone | ⟨hev, hstore⟩ | ⟨v, rfl, hm⟩
  · exact .inl hdone
  · exact .inr ⟨hev, fun id => by rw [hstore]⟩
  · exact .inr ⟨rfl, entertainerAccounts_move hm⟩

lemma InSequence.alone_step (hone : OneAtATime p ev) (i j : ℕ) (r r' : Run App Call)
    (hi : p'.live i = some r) (hj : p'.live j = some r') : i = j := by
  have hfrom : ∀ i r, p'.live i = some r →
      (∃ r₀, p.live i = some r₀) ∨ ∃ call, ev = .start call ∧ i = p.runs.length := by
    intro i r hi
    rw [live_eq_some] at hi
    rcases step_run hs hi.1 with ⟨hold, -⟩ | ⟨call, hev, hlast, -⟩ | ⟨r₀, ds, hlive, -⟩
    · exact .inl ⟨r, live_eq_some.mpr ⟨hold, hi.2⟩⟩
    · exact .inr ⟨call, hev, hlast⟩
    · exact .inl ⟨r₀, hlive⟩
  rcases hfrom i r hi with ⟨a, ha⟩ | ⟨call, hev, hlast⟩ <;>
    rcases hfrom j r' hj with ⟨b, hb⟩ | ⟨call', hev', hlast'⟩
  · exact h.alone i j a b ha hb
  · rw [hone call' hev' i] at ha; cases ha
  · rw [hone call hev j] at hb; cases hb
  · rw [hlast, hlast']

lemma InSequence.fresh_step (i : ℕ) (r : Run App Call) (hi : p'.live i = some r) (id : Uuid) :
    entertainerView id p'.store =
      entertainerView id ((attending entertainerFlow (Matches toUpperCase)).at_ r).seen := by
  rw [live_eq_some] at hi
  rcases step_run hs hi.1 with ⟨hold, hnot⟩ | ⟨call, rfl, -, rfl⟩ | ⟨r₀, ds, hlive, hgoes, hadds⟩
  · -- somebody else's statement would be that of the only call under way
    have hlive : p.live i = some r := live_eq_some.mpr ⟨hold, hi.2⟩
    rcases h.store hs with ⟨j, q, site, w, hev, hdone⟩ | ⟨-, hkeys⟩
    · rw [h.alone j i q r hdone.live hlive] at hev
      exact absurd hev hnot
    · rw [entertainerView_of_key hkeys id, h.fresh i r hlive id]
  · obtain ⟨x, -, rfl⟩ := step_start hs
    rfl
  · rw [Monitor.at_continues hgoes]
    have hsame : p'.store = p.store → entertainerView id p'.store =
        entertainerView id ((attending entertainerFlow (Matches toUpperCase)).at_ r₀).seen :=
      fun heq => by rw [heq]; exact h.fresh i r₀ hlive id
    cases hadds with
    | stmt nm w hev hex => simp [attending]
    | lost nm w e hev hex => simp [attending]
    | failed hstore nm e => simpa [attending] using hsame hstore
    | asked hstore q k hp ha => simpa [attending] using hsame hstore
    | answered hstore q k hp a => simpa [attending] using hsame hstore
    | nothing hstore => exact hsame hstore

lemma InSequence.listed_step (hedits : EditsKeepBank p ev) (id : Uuid) (e : Entertainer)
    (he : p'.store.entertainers.find (·.id == id) = some e) (code : String)
    (hcode : e.bankCode = some code) : ∃ name, e.bankName = some name ∧ BankListed p' ⟨name, code⟩ := by
  have hext := step_extends hs
  -- an entertainer that had this bank name and code before
  have hbefore : ∀ e₀, p.store.entertainers.find (·.id == id) = some e₀ → bankOf e = bankOf e₀ →
      ∃ name, e.bankName = some name ∧ BankListed p' ⟨name, code⟩ := by
    intro e₀ he₀ hbank
    obtain ⟨hname, hcode₀⟩ := Prod.mk.inj hbank
    obtain ⟨name, hn, hlisted⟩ := h.listed id e₀ he₀ code (hcode₀ ▸ hcode)
    exact ⟨name, hname.trans hn, hlisted.extends hext⟩
  rcases h.store hs with ⟨i, r, site, w, hev, hdone⟩ | ⟨-, hkeys⟩
  · rcases hdone.guar.2 id e he with hnone | ⟨e₀, he₀, hbank⟩ | ⟨bank, hmem, hbank⟩ |
      ⟨dto, e₀, hedit, rfl, he₀, hbank⟩
    · rw [hnone] at hcode; cases hcode
    · exact hbefore e₀ he₀ hbank
    · obtain ⟨hname, hcode'⟩ := Prod.mk.inj hbank
      obtain rfl : code = bank.code := Option.some.inj (hcode.symm.trans hcode')
      obtain ⟨banks, hbanks, hlog⟩ := (heard_fromLog r).2.1 bank hmem
      obtain ⟨r', hr', -, hpre⟩ := hdone.logged
      exact ⟨bank.name, hname, r', hr', banks, hbanks, hpre.subset (List.mem_append_left _ hlog)⟩
    · obtain ⟨eff, k, hprog⟩ := hdone.prog
      rw [heard_label] at hedit
      have hkeep := (hedits i hev r id eff k dto hdone.live hprog hedit e₀ he₀).2
      obtain ⟨hname, hcode'⟩ := Prod.mk.inj hbank
      refine hbefore e₀ he₀ (Prod.ext (hname.trans (hkeep ?_)) hcode')
      rw [← show e.bankCode = e₀.bankCode from hcode', hcode]; nofun
  · have hkey := hkeys id
    rw [he, Option.map_some, eq_comm, Option.map_eq_some_iff] at hkey
    obtain ⟨e₀, he₀, hkey⟩ := hkey
    simp only [entertainerKey, entertainerRecord, Prod.mk.injEq, Record.mk.injEq] at hkey
    exact hbefore e₀ he₀ (Prod.ext hkey.2.1.symm hkey.2.2.1.2.symm)

lemma InSequence.owners_step (r' : Run App Call) (hr' : r' ∈ p'.runs) (e : Entertainer)
    (he : ((attending entertainerFlow (Matches toUpperCase)).at_ r').owner = some e) :
    Confirmed toUpperCase p' e := by
  have hext := step_extends hs
  obtain ⟨j, hj⟩ := List.getElem?_of_mem hr'
  rcases step_run hs hj with ⟨hold, -⟩ | ⟨call, -, -, rfl⟩ | ⟨r, ds, hlive, hgoes, hadds⟩
  · exact (h.owners r' (List.mem_of_getElem? hold) e he).extends hext
  · cases he
  rw [Monitor.at_continues hgoes] at he
  rcases Heard.foldl_owner he with ho | ⟨id, w, s, s', hd, hfind⟩
  · exact (h.owners r (Monitor.mem_of_live hlive) e ho).extends hext
  · rw [(hadds.stmt_mem hd).1] at hfind
    exact (h.confirmed hfind).extends hext

lemma InSequence.pays_step (r' : Run App Call) (hr' : r' ∈ p'.runs) :
    PaysConfirmed toUpperCase p' r' := by
  have hext := step_extends hs
  obtain ⟨j, hj⟩ := List.getElem?_of_mem hr'
  -- what was asked before, by the run as it was
  have hbefore : ∀ r ∈ p.runs, r.log <+: r'.log → ∀ transfer,
      .asked (.initiateTransfer transfer) ∈ r.log → ∃ params,
      .answered (.createRecipient params) (.ok transfer.recipientCode) ∈ r'.log ∧
      (params.accountType = .ENTERTAINER_PAYABLE → ∃ ownerId name t, params.ownerId = some ownerId ∧
        NameConfirmed toUpperCase p' ownerId params.accountNumber params.bankCode name t) := by
    intro r hr hpre transfer hasked
    obtain ⟨params, hcode, htype⟩ := h.pays r hr transfer hasked
    refine ⟨params, hpre.subset hcode, fun ht => ?_⟩
    obtain ⟨ownerId, name, t, howner, hname⟩ := htype ht
    exact ⟨ownerId, name, t, howner, hname.extends hext⟩
  intro transfer hasked
  rcases step_run hs hj with ⟨hold, -⟩ | ⟨call, -, -, rfl⟩ | ⟨r, ds, hlive, hgoes, hadds⟩
  · exact hbefore r' (List.mem_of_getElem? hold) List.prefix_rfl transfer hasked
  · cases hasked
  have hpre : r.log <+: r'.log := hgoes.log ▸ List.prefix_append _ _
  rw [hgoes.log, List.mem_append] at hasked
  rcases hasked with hasked | hasked
  · exact hbefore r (Monitor.mem_of_live hlive) hpre transfer hasked
  cases hadds with
  | asked hstore q k hp ha =>
    simp only [List.mem_singleton, Did.asked.injEq] at hasked
    subst hasked
    have hquery : SendsWhereAddressed _ (.initiateTransfer transfer) :=
      h.attended.watched.query hlive hp ha
    obtain ⟨params, hrecipient, haddr⟩ := hquery
    refine ⟨params, hpre.subset ((heard_fromLog r).2.2 _ _ hrecipient), fun ht => ?_⟩
    obtain ⟨e, howner, hid, name, reason, hsend⟩ := haddr ht
    obtain ⟨holder, t, hname⟩ :=
      (h.owners r (Monitor.mem_of_live hlive) e howner).destination hsend
    exact ⟨e.id, holder, t, hid, hname.extends hext⟩
  | _ => simp at hasked

lemma InSequence.attended_step (hedits : EditsKeepBank p ev) :
    Attended entertainerFlow (Matches toUpperCase) p' := by
  refine Onboarding.attended_step (fun call db => program_course call db)
    (fun v s x s' x' hm id => entertainerView_of_key (entertainerAccounts_move hm) id) h.attended hs
    fun i r site w hev hdone id write d hpending hview hchecked => ?_
  by_cases hsite : entertainerChecked site = true
  · -- the record is the one the call read
    obtain ⟨read, hread, hcurrent⟩ := hchecked hsite
    have hseen := h.fresh i r hdone.live id
    obtain rfl : d = read := Option.some.inj (hview.symm.trans (hseen.trans hread))
    exact hcurrent
  · change entertainerPending _ site w = _ at hpending
    unfold entertainerPending at hpending
    split at hpending
    · exact absurd rfl hsite
    · exact absurd rfl hsite
    · exact absurd rfl hsite
    · obtain ⟨dto, hedit, heq⟩ := Option.map_eq_some_iff.mp hpending
      cases heq
      obtain ⟨e, he, rfl⟩ := Option.map_eq_some_iff.mp hview
      obtain ⟨eff, k, hprog⟩ := hdone.prog
      rw [heard_label] at hedit
      have hkeep := (hedits i hev r id eff k dto hdone.live hprog hedit e he).1
      by_cases hnone : e.resolvedAccountName = none
      · exact .inr hnone
      · exact .inl (Prod.ext (hkeep hnone).symm rfl)
    · cases hpending

/-- **One event of a sequence of calls.** -/
theorem inSequence_step (hone : OneAtATime p ev) (hedits : EditsKeepBank p ev) :
    InSequence toUpperCase p' :=
  ⟨h.attended_step hs hedits, h.alone_step hs hone, h.fresh_step hs, h.listed_step hs hedits,
    h.owners_step hs, h.pays_step hs⟩

end Step

/-- Before the first entertainer is created. -/
lemma inSequence_start {db : Db} (hnone : db.entertainers.rows = []) :
    InSequence toUpperCase ⟨db, (), []⟩ := by
  have hfind : ∀ id, db.entertainers.find (·.id == id) = none := by
    intro id; simp [Table.find, hnone]
  have hlive : ∀ i r, (⟨db, (), []⟩ : Pool App Call Unit).live i ≠ some r := by
    intro i r; simp [Pool.live]
  exact {
    attended := attended_start rfl fun id d hd => by simp [entertainerFlow, entertainerView, hfind] at hd
    alone := fun i j r r' hi => absurd hi (hlive i r)
    fresh := fun i r hi => absurd hi (hlive i r)
    listed := fun id e he => by simp [hfind] at he
    owners := fun r hr => by cases hr
    pays := fun r hr => by cases hr }

/-- In every allowed run a confirmed entertainer is paid where the bank said, and was. -/
def StaysConfirmed (toUpperCase : String → String)
    (ok : Pool App Call Unit → Event App Call Db → Prop) (p₀ : Pool App Call Unit) : Prop :=
  ∀ p, Reach (entertainerAccounts toUpperCase fun _ => true) ok p₀ p →
    (∀ e ∈ p.store.entertainers.rows, Confirmed toUpperCase p e) ∧
    ∀ r ∈ p.runs, PaysConfirmed toUpperCase p r

/-- **A confirmed destination is the account the bank named**, in every sequence of calls, as long
as edits leave the bank columns of entertainers in onboarding alone. -/
theorem stays_confirmed {db : Db} (hnone : db.entertainers.rows = []) :
    StaysConfirmed toUpperCase (fun p ev => OneAtATime p ev ∧ EditsKeepBank p ev) ⟨db, (), []⟩ := by
  intro p hreach
  have h : InSequence toUpperCase p := hreach.keeps
    (fun q ev q' hq hok hs => inSequence_step hq hs hok.1 hok.2) (inSequence_start hnone)
  refine ⟨fun e he => ?_, h.pays⟩
  have hfind : p.store.entertainers.find (·.id == e.id) = some e :=
    (Table.find_eq_some names_entertainer).mpr ⟨he, by simp⟩
  exact h.confirmed hfind

theorem stays_confirmed_sample : StaysConfirmed asciiUpperCase
    (fun p ev => OneAtATime p ev ∧ EditsKeepBank p ev) ⟨{}, (), []⟩ :=
  stays_confirmed rfl

/-! ### A run: an edit of a confirmed account -/

instance (p : Pool App Call Unit) (ev : Event App Call Db) : Decidable (OneAtATime p ev) :=
  decidable_of_iff ((ev matches .start _) = true → ∀ r ∈ p.runs, r.alive = false) <| by
    refine ⟨fun h call hev i => ?_, fun h hev r hr => ?_⟩
    · subst hev
      rw [Option.eq_none_iff_forall_ne_some]
      intro r hi
      rw [live_eq_some] at hi
      simp [h rfl r (List.mem_of_getElem? hi.1)] at hi
    · cases ev <;> simp at hev
      obtain ⟨i, hi⟩ := List.getElem?_of_mem hr
      by_contra hne
      have hlive := live_eq_some.mpr ⟨hi, Bool.eq_true_of_not_eq_false hne⟩
      rw [h _ rfl i] at hlive
      cases hlive

/-- Entertainer created, account confirmed, account edited: five complete calls. -/
def confirmedThenEdited : List (Event App Call Db) :=
  let id := uid 1000
  .start (.create ⟨"DJ Ada", "Ada Obi", "+2348000000001", none, none⟩) :: execs 0 [1] ++ .finish 0 ::
    .start (.submitBankDetails id (anAccount "0000000001")) :: execs 1 [2] ++ asks 1 agreeable ++
    execs 1 [3] ++ .finish 1 ::
    .start (.resolveAccount id) :: execs 2 [4] ++ asks 2 agreeable ++ execs 2 [5] ++ .finish 2 ::
    .start (.confirmAccount id "Ada Obi") :: execs 3 [6, 7] ++ .finish 3 ::
    .start (.update id ⟨none, none, none, none, some (some "0000000002"), none⟩) :: execs 4 [8] ++
    [.finish 4]

/-- The edit sends a confirmed entertainer's money to another account. -/
theorem edited_stays_confirmed : ¬ StaysConfirmed asciiUpperCase OneAtATime ⟨{}, (), []⟩ := by
  intro hstays
  have hcheck : ((run (entertainerAccounts asciiUpperCase fun _ => true) ⟨{}, (), []⟩
      confirmedThenEdited).any fun p => misdirected entertainerFlow p (uid 1000)) = true := by
    decide +kernel
  obtain ⟨p, hp, hmis⟩ := (Option.any_eq_true _ _).mp hcheck
  obtain ⟨d, t, hd, ht, hnot⟩ := not_said_of_misdirected hmis
  obtain ⟨e, he, rfl⟩ := Option.map_eq_some_iff.mp hd
  obtain ⟨accountNumber, bankCode, -, name, hnumber, hcode, -, hname, ⟨hsaid, -⟩, -⟩ :=
    (hstays p (reach_of_run (by decide +kernel) hp)).1 e (Table.mem_of_find he) t ht
  refine hnot name hname ?_
  rw [show (entertainerRecord e).details = (some accountNumber, some bankCode) from
    Prod.ext hnumber hcode]
  exact hsaid

end Splitcore.Onboarding
