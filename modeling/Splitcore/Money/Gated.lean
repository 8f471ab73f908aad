import Splitcore.Interleaving.Recording
import Splitcore.Money.Claimed
import Splitcore.Money.Spared

/-!
The gate of a payout: money goes only where the run read that its owner may be paid, and a payout that is
held, or left to a person, keeps its obligation.
-/

namespace Splitcore.Money

open Relational Interleaving Ledger

/-! ### What a log says of the destination -/

/-- What the owner's row says, in a statement that reads it. -/
def destinationOf : Did App → Option PayoutDestination
  | .stmt (.resolveDestinationEntertainer ownerId) _ s _ =>
    some (entertainerDestination (s.entertainers.find (·.id == ownerId)))
  | .stmt (.resolveDestinationVenue ownerId) _ s _ =>
    some (venueDestination (s.venues.find (·.id == ownerId)))
  | _ => none

/-- The account of the payout, in the statement that reads both. -/
def accountOf : Did App → Option LedgerAccount
  | .stmt (.processPayoutFind payoutId) _ s _ => (payoutWithAccount (·.id == payoutId) s).map Prod.snd
  | _ => none

def marksForReview : Did App → Bool
  | .stmt (.markForReview _) _ _ _ => true
  | _ => false

/-- The calls that move money, or prepare to. -/
def callsProvider : Did App → Bool
  | .asked (.createRecipient _) | .asked (.initiateTransfer _) => true
  | _ => false

def destinationIn (log : List (Did App)) : Option PayoutDestination := log.findSome? destinationOf

def accountIn (log : List (Did App)) : Option LedgerAccount := log.findSome? accountOf

/-- What a run that holds the payout, or leaves it to a person, may make of its status; it leaves a payout to
a person also without a look at an owner, if there is none to look at. -/
def withheldIn (log : List (Did App)) : Option PayoutStatus :=
  match destinationIn log with
  | some (.hold _) => some .QUEUED
  | some (.review _) => some .FAILED
  | some (.send _ _ _ _) => none
  | none => if log.any marksForReview then some .FAILED else none

/-- The statement read the owner of the account, who may be paid, and the recipient is made of what it
read. -/
inductive GatedBy (account : LedgerAccount) (recipient : RecipientParams) : Did App → Prop
  | entertainer (w : Input) (s s' : Db) (e : Entertainer) (htype : account.type = .ENTERTAINER_PAYABLE)
      (howner : account.ownerId = some e.id) (he : e ∈ s.entertainers.rows)
      (hverified : e.kycStatus = .VERIFIED) (hconfirmed : e.accountConfirmedAt ≠ none)
      (hname : recipient.name = e.legalName) (hnumber : e.accountNumber = some recipient.accountNumber)
      (hbank : (e.bankCode <|> e.bankName.bind resolveBankCode) = some recipient.bankCode) :
      GatedBy account recipient (.stmt (.resolveDestinationEntertainer e.id) w s s')
  | venue (w : Input) (s s' : Db) (v : Venue) (htype : account.type = .VENUE_PAYABLE)
      (howner : account.ownerId = some v.id) (hv : v ∈ s.venues.rows)
      (hconfirmed : v.accountConfirmedAt ≠ none)
      (hname : recipient.name = v.resolvedAccountName.getD v.name)
      (hnumber : v.accountNumber = some recipient.accountNumber)
      (hbank : (v.bankCode <|> v.bankName.bind resolveBankCode) = some recipient.bankCode) :
      GatedBy account recipient (.stmt (.resolveDestinationVenue v.id) w s s')

/-- Of all it did before, the run read one owner, that of the payout's account, and sends there. -/
def SendsTo (before : List (Did App)) (recipient : RecipientParams) : Prop :=
  ∃ account read, accountIn before = some account ∧ before.filter (fun d => (destinationOf d).isSome) = [read] ∧
    GatedBy account recipient read

/-- The calls that move money are let through by the gate. -/
def Gate (before : List (Did App)) : Did App → Prop
  | .asked (.createRecipient recipient) => SendsTo before recipient
  | .asked (.initiateTransfer params) => ∃ recipient, SendsTo before recipient ∧
      .answered (.createRecipient recipient) (.ok params.recipientCode) ∈ before
  | _ => True

/-- Nothing is posted, and of the payouts one at most changes, in its status and the reason for it. -/
structure Withholds (payoutId : Uuid) (status : PayoutStatus) (db db' : Db) : Prop where
  postings : db'.postings = db.postings
  payouts : List.Forall₂ (fun p p' : Payout => p' = p ∨ p.id = payoutId ∧ ∃ failureReason updatedAt,
    p' = { p with status, failureReason, updatedAt }) db.payouts.rows db'.payouts.rows

/-- What a run of `processPayout` did so far. -/
structure GateKept (payoutId : Uuid) (log : List (Did App)) : Prop where
  gated : Throughout Gate log
  withheld : ∀ status, withheldIn log = some status → (∀ d ∈ log, callsProvider d = false) ∧
    ∀ site w s s', .stmt site w s s' ∈ log → Withholds payoutId status s s'

/-! ### What the destinations ask for -/

section Destinations

variable {name bankCode accountNumber reason : String}

lemma truthy_eq_some {s : Option String} {x : String} (h : truthy s = some x) : s = some x := by
  unfold truthy at h
  exact (Option.filter_eq_some_iff.mp h).1

lemma entertainerDestination_send {found : Option Entertainer}
    (h : entertainerDestination found = .send name bankCode accountNumber reason) :
    ∃ e, found = some e ∧ e.kycStatus = .VERIFIED ∧ e.accountConfirmedAt ≠ none ∧ name = e.legalName ∧
      e.accountNumber = some accountNumber ∧ (e.bankCode <|> e.bankName.bind resolveBankCode) = some bankCode := by
  rcases found with _ | e
  · cases h
  simp only [entertainerDestination] at h
  split at h
  · cases h
  rename_i hgate
  push Not at hgate
  split at h
  · rename_i bank number hbank hnumber
    split at h
    · cases h
    · rename_i code hcode
      cases h
      refine ⟨e, rfl, hgate.1, hgate.2, rfl, truthy_eq_some hnumber, ?_⟩
      rw [truthy_eq_some hbank]
      exact truthy_eq_some hcode
  · cases h

lemma venueDestination_send {found : Option Venue}
    (h : venueDestination found = .send name bankCode accountNumber reason) :
    ∃ v, found = some v ∧ v.accountConfirmedAt ≠ none ∧ name = v.resolvedAccountName.getD v.name ∧
      v.accountNumber = some accountNumber ∧ (v.bankCode <|> v.bankName.bind resolveBankCode) = some bankCode := by
  rcases found with _ | v
  · cases h
  simp only [venueDestination] at h
  split at h
  · cases h
  rename_i hconfirmed
  split at h
  · rename_i bank number hbank hnumber
    split at h
    · cases h
    · rename_i code hcode
      cases h
      refine ⟨v, rfl, hconfirmed, rfl, truthy_eq_some hnumber, ?_⟩
      rw [truthy_eq_some hbank]
      exact truthy_eq_some hcode
  · cases h

end Destinations

/-! ### Logs as they grow -/

section Logs

variable {payoutId : Uuid} {status : PayoutStatus} {log : List (Did App)} {d : Did App} {s s' : Db} {w : Input}
  {σ σ' : Db × ℕ}

lemma destinationIn_snoc : destinationIn (log ++ [d]) = (destinationIn log).or (destinationOf d) := by
  have hsingle : [d].findSome? destinationOf = destinationOf d := by
    rcases h : destinationOf d <;> simp [h]
  rw [destinationIn, List.findSome?_append, hsingle]
  rfl

lemma gate_of_silent (h : callsProvider d = false) {before : List (Did App)} : Gate before d := by
  unfold Gate
  split
  · cases h
  · cases h
  · trivial

lemma throughout_gate (h : ∀ d ∈ log, callsProvider d = false) : Throughout Gate log := by
  intro before d hpre
  exact gate_of_silent (h d (hpre.subset (by simp)))

lemma Withholds.of_eq (h : s' = s) : Withholds payoutId status s s' := by
  subst h
  exact ⟨rfl, List.forall₂_same.mpr fun _ _ => .inl rfl⟩

lemma withholds_updateMany {guard : Payout → Bool} {update : Payout → Payout} {n : ℕ}
    (h : Model.payout.updateMany guard update w σ = .ok (n, σ')) (hguard : ∀ p, guard p = true → p.id = payoutId)
    (hupdate : ∀ p, guard p = true → ∃ failureReason updatedAt,
      update p = { p with status, failureReason, updatedAt }) : Withholds payoutId status σ.1 σ'.1 := by
  obtain ⟨-, t, ht, rfl⟩ := Model.updateMany_ok h
  refine ⟨rfl, ?_⟩
  show List.Forall₂ _ σ.1.payouts.rows t.rows
  rw [Table.rows_update ht, List.forall₂_map_right_iff]
  refine List.forall₂_same.mpr fun p _ => ?_
  split
  · rename_i hp
    exact .inr ⟨hguard p hp, hupdate p hp⟩
  · exact .inl rfl

/-- Nothing that matters was done or read yet. -/
def Unresolved (log : List (Did App)) : Prop :=
  ∀ d ∈ log, destinationOf d = none ∧ marksForReview d = false ∧ callsProvider d = false

lemma Unresolved.snoc (h : Unresolved log) (hdest : destinationOf d = none) (hreview : marksForReview d = false)
    (hcall : callsProvider d = false) : Unresolved (log ++ [d]) := by
  intro d' hd'
  rcases List.mem_append.mp hd' with hd' | hd'
  · exact h d' hd'
  · rw [List.mem_singleton.mp hd']
    exact ⟨hdest, hreview, hcall⟩

lemma Unresolved.destinationIn (h : Unresolved log) : destinationIn log = none :=
  List.findSome?_eq_none_iff.mpr fun d hd => (h d hd).1

lemma Unresolved.gateKept (h : Unresolved log) : GateKept payoutId log := by
  refine ⟨throughout_gate fun d hd => (h d hd).2.2, fun status hstatus => ?_⟩
  have hreview : log.any marksForReview = false := by
    rw [List.any_eq_false]
    exact fun d hd => by simp [(h d hd).2.1]
  rw [withheldIn, h.destinationIn, hreview] at hstatus
  cases hstatus

/-- A run that withholds the payout has only read so far, and writes as it may. -/
lemma gateKept_withheld (hcalls : ∀ d ∈ log, callsProvider d = false) (hreads : OnlyReads log)
    (hcall : callsProvider d = false) (hd : ∀ site w s s', d = .stmt site w s s' →
      ∀ status, withheldIn (log ++ [d]) = some status → Withholds payoutId status s s') :
    GateKept payoutId (log ++ [d]) := by
  have hall : ∀ d' ∈ log ++ [d], callsProvider d' = false := by
    intro d' hd'
    rcases List.mem_append.mp hd' with hd' | hd'
    · exact hcalls d' hd'
    · rw [List.mem_singleton.mp hd']
      exact hcall
  refine ⟨throughout_gate hall, fun status hstatus => ⟨hall, fun site w s s' hmem => ?_⟩⟩
  rcases List.mem_append.mp hmem with hmem | hmem
  · exact .of_eq (hreads site w s s' hmem)
  · exact hd site w s s' (List.mem_singleton.mp hmem).symm status hstatus

/-- What comes to a run changes nothing. -/
lemma GateKept.came (h : GateKept payoutId log) (hd : d.came = true) : GateKept payoutId (log ++ [d]) := by
  have hall : destinationOf d = none ∧ marksForReview d = false ∧ callsProvider d = false ∧
      ∀ site w s s', d ≠ .stmt site w s s' := by
    cases d with
    | failed nm e => exact ⟨rfl, rfl, rfl, fun _ _ _ _ h => by cases h⟩
    | answered q a => exact ⟨rfl, rfl, rfl, fun _ _ _ _ h => by cases h⟩
    | stmt nm w s s' => cases hd
    | asked q => cases hd
  obtain ⟨hdest, hreview, hcall, hstmt⟩ := hall
  refine ⟨throughout_snoc h.gated (gate_of_silent hcall), fun status hstatus => ?_⟩
  have hsame : withheldIn (log ++ [d]) = withheldIn log := by
    simp only [withheldIn, destinationIn_snoc, hdest, Option.or_none, List.any_append, List.any_cons, List.any_nil,
      hreview, Bool.or_false]
  obtain ⟨hcalls, hwithholds⟩ := h.withheld status (hsame ▸ hstatus)
  refine ⟨fun d' hd' => ?_, fun site w s s' hmem => ?_⟩
  · rcases List.mem_append.mp hd' with hd' | hd'
    · exact hcalls d' hd'
    · rw [List.mem_singleton.mp hd']
      exact hcall
  · rcases List.mem_append.mp hmem with hmem | hmem
    · exact hwithholds site w s s' hmem
    · exact absurd (List.mem_singleton.mp hmem).symm (hstmt site w s s')

end Logs

/-! ### The run of a payout -/

section Programs

variable {payoutId : Uuid} {payout : Payout} {account : LedgerAccount} {log : List (Did App)} {α β : Type}

/-- What the log of a call has to be like. -/
def keepsGate (o : Operation) (log : List (Did App)) : Prop :=
  ∀ payoutId, o = .processPayout payoutId → GateKept payoutId log

/-- The rest of the run of a payout leaves its log proper. -/
abbrev Goes (payoutId : Uuid) (p : Prog App α) (log : List (Did App)) : Prop :=
  Obeys (recording keepsGate) (fun _ _ => True) p (.processPayout payoutId, log)

lemma keepsGate_iff : keepsGate (.processPayout payoutId) log ↔ GateKept payoutId log := by
  constructor
  · exact fun h => h payoutId rfl
  · rintro h id hid
    cases hid
    exact h

lemma goes_query {site : Site} {f : Db → α} {k : α → Prog App β}
    (h : ∀ w s, GateKept payoutId (log ++ [.stmt site w s s]) ∧
      Goes payoutId (k (f s)) (log ++ [.stmt site w s s])) : Goes payoutId (query site f >>= k) log :=
  obeys_bind.mpr <| obeys_query (fun w s _ => ⟨keepsGate_iff.mpr (h w s).1, (h w s).2⟩) fun _ _ => trivial

lemma goes_statement {site : Site} {m : Tx α} {k : α → Prog App β}
    (hkept : ∀ w s s', s' = s ∨ (∃ a, m.run w s = .ok (a, s')) → GateKept payoutId (log ++ [.stmt site w s s']))
    (h : ∀ w s a s', m.run w s = .ok (a, s') → Goes payoutId (k a) (log ++ [.stmt site w s s'])) :
    Goes payoutId (statement site m >>= k) log :=
  obeys_bind.mpr <| obeys_command
    (fun w s a s' _ hm => ⟨keepsGate_iff.mpr (hkept w s s' (.inr ⟨a, hm⟩)), h w s a s' hm⟩)
    (fun w s _ _ _ => keepsGate_iff.mpr (hkept w s s (.inl rfl))) fun _ _ => trivial

lemma goes_statement_last {site : Site} {m : Tx α}
    (hkept : ∀ w s s', s' = s ∨ (∃ a, m.run w s = .ok (a, s')) → GateKept payoutId (log ++ [.stmt site w s s'])) :
    Goes payoutId (statement site m) log :=
  obeys_command (fun w s a s' _ hm => ⟨keepsGate_iff.mpr (hkept w s s' (.inr ⟨a, hm⟩)), trivial⟩)
    (fun w s _ _ _ => keepsGate_iff.mpr (hkept w s s (.inl rfl))) fun _ _ => trivial

lemma goes_request {q : Ask} {k : Ans q → Prog App β} (hq : GateKept payoutId (log ++ [.asked q]))
    (h : ∀ a, Goes payoutId (k a) (log ++ [.asked q] ++ [.answered q (.ok a)])) :
    Goes payoutId (request q >>= k) log := by
  refine obeys_bind.mpr (obeys_request (keepsGate_iff.mpr hq) fun a => ?_)
  rcases a with e | a
  · trivial
  · exact h a

/-! #### Without a destination -/

lemma markSucceeded_goes {reference : String} (h : Unresolved log) :
    Goes payoutId (markSucceeded payout.id reference) log := by
  refine goes_query fun w s => ?_
  have hfind := h.snoc (d := .stmt (.markSucceededFind payout.id) w s s) rfl rfl rfl
  refine ⟨hfind.gateKept, ?_⟩
  rcases payoutWithAccount (·.id == payout.id) s with _ | ⟨payout, account⟩
  · trivial
  simp only
  rcases computePayoutEntries (payoutForPosting payout account) with e | entries
  · trivial
  · exact goes_statement (fun w s s' _ => (hfind.snoc rfl rfl rfl).gateKept) fun w s a s' _ => trivial

lemma flagForOperator_goes (h : Unresolved log) : Goes payoutId (flagForOperator payout.id) log :=
  goes_statement_last fun _ _ _ _ => (h.snoc rfl rfl rfl).gateKept

/-! #### A payout withheld -/

lemma markForReview_goes {reason : String} (hid : payout.id = payoutId)
    (hcalls : ∀ d ∈ log, callsProvider d = false) (hreads : OnlyReads log)
    (hwithheld : ∀ status w s s', withheldIn (log ++ [.stmt (.markForReview payout.id) w s s']) = some status →
      status = .FAILED) : Goes payoutId (markForReview payout.id reason) log := by
  refine goes_statement_last fun w s s' hm => gateKept_withheld hcalls hreads rfl ?_
  rintro site w' s₁ s₁' ⟨⟩ status hstatus
  obtain rfl := hwithheld status w s s' hstatus
  rcases hm with rfl | ⟨a, hm⟩
  · exact .of_eq rfl
  obtain ⟨n, h⟩ := Tx.run_ok.mp hm
  simp only [Tx.bind_ok, Tx.now_ok, Tx.pure_ok] at h
  obtain ⟨_, _, ⟨rfl, rfl⟩, c, σ₁, hupd, -, rfl⟩ := h
  refine withholds_updateMany hupd (fun p hp => ?_) fun p _ => ⟨_, _, rfl⟩
  simp only [Bool.and_eq_true, beq_iff_eq] at hp
  exact hp.1.trans hid

lemma hold_goes (hid : payout.id = payoutId) (hcalls : ∀ d ∈ log, callsProvider d = false)
    (hreads : OnlyReads log)
    (hwithheld : ∀ status w s s', withheldIn (log ++ [.stmt (.processPayoutHold payout.id) w s s']) = some status →
      status = .QUEUED) : Goes payoutId (hold payout) log := by
  unfold hold
  split
  · refine goes_statement_last fun w s s' hm => gateKept_withheld hcalls hreads rfl ?_
    rintro site w' s₁ s₁' ⟨⟩ status hstatus
    obtain rfl := hwithheld status w s s' hstatus
    rcases hm with rfl | ⟨a, hm⟩
    · exact .of_eq rfl
    obtain ⟨n, h⟩ := Tx.run_ok.mp hm
    simp only [Tx.bind_ok, Tx.now_ok, Tx.pure_ok] at h
    obtain ⟨_, _, ⟨rfl, rfl⟩, c, σ₁, hupd, -, rfl⟩ := h
    refine withholds_updateMany hupd (fun p hp => ?_) fun p _ => ⟨p.failureReason, _, rfl⟩
    simp only [Bool.and_eq_true, beq_iff_eq] at hp
    exact hp.1.trans hid
  · trivial

/-! #### A payout sent -/

/-- The run read who is to be paid. -/
structure Sending (log : List (Did App)) : Prop where
  gated : Throughout Gate log
  sends : ∃ name bankCode accountNumber reason, destinationIn log = some (.send name bankCode accountNumber reason)

lemma Sending.gateKept (h : Sending log) : GateKept payoutId log := by
  refine ⟨h.gated, fun status hstatus => ?_⟩
  obtain ⟨name, bankCode, accountNumber, reason, hsend⟩ := h.sends
  rw [withheldIn, hsend] at hstatus
  cases hstatus

lemma Sending.snoc {d : Did App} (h : Sending log) (hgate : Gate log d) : Sending (log ++ [d]) := by
  refine ⟨throughout_snoc h.gated hgate, ?_⟩
  obtain ⟨name, bankCode, accountNumber, reason, hsend⟩ := h.sends
  exact ⟨name, bankCode, accountNumber, reason, by rw [destinationIn_snoc, hsend]; rfl⟩

lemma SendsTo.snoc {recipient : RecipientParams} {d : Did App} (h : SendsTo log recipient)
    (hdest : destinationOf d = none) : SendsTo (log ++ [d]) recipient := by
  obtain ⟨account, read, haccount, hreads, hgated⟩ := h
  refine ⟨account, read, ?_, ?_, hgated⟩
  · have hfirst : log.findSome? accountOf = some account := haccount
    rw [accountIn, List.findSome?_append, hfirst]
    rfl
  · rw [List.filter_append, hreads]
    simp [hdest]

/-- What follows a transfer calls no provider. -/
lemma transferAnswered_goes {reference : String} {transfer : Transfer} (h : Sending log) :
    Goes payoutId (transferAnswered payout reference transfer) log := by
  have hspares : SparesBeside (fun _ => ()) (transferAnswered payout reference transfer) :=
    transferAnswered_spares fun _ _ _ _ _ => rfl
  refine (obeys_of_spares (M := recording keepsGate)
    (I := fun g => g.1 = .processPayout payoutId ∧ Sending g.2) hspares ?_ ?_ ?_ ?_ ⟨rfl, h⟩).mono fun _ _ _ => trivial
  · rintro ⟨o, log⟩ site w s s' ⟨rfl, hsending⟩ - -
    have hnext := hsending.snoc (d := .stmt site w s s') trivial
    exact ⟨keepsGate_iff.mpr hnext.gateKept, rfl, hnext⟩
  · rintro ⟨o, log⟩ site e ⟨rfl, hsending⟩ -
    exact ⟨rfl, hsending.snoc trivial⟩
  · rintro ⟨o, log⟩ q ⟨rfl, hsending⟩ hq
    have hnext : Sending (log ++ [.asked q]) := by
      cases q with
      | createRecipient recipient => cases hq
      | initiateTransfer params => cases hq
      | _ => exact hsending.snoc trivial
    exact ⟨keepsGate_iff.mpr hnext.gateKept, rfl, hnext⟩
  · rintro ⟨o, log⟩ q a ⟨rfl, hsending⟩ -
    exact ⟨rfl, hsending.snoc trivial⟩

lemma sendTransfer_goes {name bankCode accountNumber reason : String} (h : Sending log)
    (hto : SendsTo log ⟨name, accountNumber, bankCode, account.ownerId, account.type⟩) :
    Goes payoutId (sendTransfer payout account name bankCode accountNumber reason) log := by
  have hasked := h.snoc (d := .asked (.createRecipient ⟨name, accountNumber, bankCode, account.ownerId,
    account.type⟩)) hto
  refine goes_request hasked.gateKept fun code => ?_
  have hcode := hasked.snoc (d := .answered (.createRecipient ⟨name, accountNumber, bankCode, account.ownerId,
    account.type⟩) (.ok code)) trivial
  refine goes_statement (fun w s s' _ => Sending.gateKept (hcode.snoc trivial)) fun w s a s' _ => ?_
  have hsaved := hcode.snoc (d := .stmt (.processPayoutRecipient payout.id) w s s') trivial
  refine goes_request (Sending.gateKept (hsaved.snoc ?_)) fun transfer =>
    transferAnswered_goes ((hsaved.snoc ?_).snoc trivial)
  all_goals exact ⟨_, ((hto.snoc rfl).snoc rfl).snoc rfl, by simp⟩

/-! #### A new attempt -/

/-- The run read one owner, and nothing else that matters. -/
lemma filter_reads {read : Did App} (h : Unresolved log) (hread : (destinationOf read).isSome = true) :
    (log ++ [read]).filter (fun d => (destinationOf d).isSome) = [read] := by
  have hnone : log.filter (fun d => (destinationOf d).isSome) = [] :=
    List.filter_eq_nil_iff.mpr fun d hd => by simp [(h d hd).1]
  rw [List.filter_append, hnone, List.nil_append, List.filter_eq_self]
  exact fun d hd => by rwa [List.mem_singleton.mp hd]

lemma withheldIn_read {read d : Did App} {destination : PayoutDestination} (h : Unresolved log)
    (hread : destinationOf read = some destination) : destinationIn (log ++ [read]) = some destination ∧
      withheldIn (log ++ [read] ++ [d]) = withheldIn (log ++ [read]) := by
  have hfirst : destinationIn (log ++ [read]) = some destination := by
    rw [destinationIn_snoc, h.destinationIn, hread]
    rfl
  refine ⟨hfirst, ?_⟩
  rcases destination with _ | _ | _ <;> simp only [withheldIn, destinationIn_snoc (d := d), hfirst, Option.some_or]

/-- Once the owner was read, what it says is done. -/
lemma resolved_goes {read : Did App} {destination : PayoutDestination} (hid : payout.id = payoutId)
    (h : Unresolved log) (hreads : OnlyReads log) (hread : destinationOf read = some destination)
    (hstmt : ∃ site w s, read = .stmt site w s s)
    (hto : ∀ name bankCode accountNumber reason, destination = .send name bankCode accountNumber reason →
      SendsTo (log ++ [read]) ⟨name, accountNumber, bankCode, account.ownerId, account.type⟩) :
    GateKept payoutId (log ++ [read]) ∧ Goes payoutId (match destination with
      | .review reason => markForReview payout.id reason
      | .hold _ => hold payout
      | .send name bankCode accountNumber reason => do
        let count ← claimAttempt payout
        if count = 0 then pure ()
        else sendTransfer payout account name bankCode accountNumber reason) (log ++ [read]) := by
  obtain ⟨site, w, s, rfl⟩ := hstmt
  have hcalls : ∀ d ∈ log ++ [.stmt site w s s], callsProvider d = false := by
    intro d hd
    rcases List.mem_append.mp hd with hd | hd
    · exact (h d hd).2.2
    · rw [List.mem_singleton.mp hd]
      rfl
  have honly : OnlyReads (log ++ [.stmt site w s s]) := hreads.snoc fun _ _ _ _ heq => by cases heq; rfl
  obtain ⟨hfirst, -⟩ := withheldIn_read (d := .stmt site w s s) h hread
  have hkept : GateKept payoutId (log ++ [.stmt site w s s]) :=
    ⟨throughout_gate hcalls, fun status _ => ⟨hcalls, fun site w s s' hmem => .of_eq (honly site w s s' hmem)⟩⟩
  refine ⟨hkept, ?_⟩
  cases destination with
  | review reason =>
    refine markForReview_goes hid hcalls honly fun status w₁ s₁ s₁' hstatus => ?_
    rw [(withheldIn_read h hread).2, withheldIn, hfirst] at hstatus
    exact (Option.some.inj hstatus).symm
  | hold reason =>
    refine hold_goes hid hcalls honly fun status w₁ s₁ s₁' hstatus => ?_
    rw [(withheldIn_read h hread).2, withheldIn, hfirst] at hstatus
    exact (Option.some.inj hstatus).symm
  | send name bankCode accountNumber reason =>
    have hsending : Sending (log ++ [.stmt site w s s]) := ⟨hkept.gated, name, bankCode, accountNumber, reason, hfirst⟩
    refine goes_statement (fun w₁ s₁ s₁' _ => Sending.gateKept (hsending.snoc trivial)) fun w₁ s₁ n s₁' _ => ?_
    have hclaimed := hsending.snoc (d := .stmt (.processPayoutClaim payout.id) w₁ s₁ s₁') trivial
    split
    · trivial
    · exact sendTransfer_goes hclaimed ((hto name bankCode accountNumber reason rfl).snoc rfl)

lemma newAttempt_goes (hid : payout.id = payoutId) (h : Unresolved log) (hreads : OnlyReads log)
    (haccount : accountIn log = some account) : Goes payoutId (newAttempt payout account) log := by
  have hunowned : ∀ reason, Goes payoutId (markForReview payout.id reason) log := by
    refine fun reason => markForReview_goes hid (fun d hd => (h d hd).2.2) hreads fun status w s s' hstatus => ?_
    simp only [withheldIn, destinationIn_snoc, h.destinationIn, destinationOf, Option.or_none, List.any_append,
      List.any_cons, marksForReview, Bool.true_or, Bool.or_true, if_true, Option.some.injEq] at hstatus
    exact hstatus.symm
  have haccount' : ∀ d, accountIn (log ++ [d]) = some account := fun d => by
    have hfirst : log.findSome? accountOf = some account := haccount
    rw [accountIn, List.findSome?_append, hfirst]
    rfl
  refine obeys_bind.mpr ?_
  unfold resolveDestination
  split
  · exact hunowned _
  · rename_i ownerId howner htype
    refine obeys_bind.mpr (obeys_query (fun w s _ => And.imp_left keepsGate_iff.mpr ?_) fun _ _ => trivial)
    refine resolved_goes hid h hreads rfl ⟨_, w, s, rfl⟩ fun name bankCode accountNumber reason hsend => ?_
    obtain ⟨e, hfind, hverified, hconfirmed, hname, hnumber, hbank⟩ := entertainerDestination_send hsend
    obtain rfl : e.id = ownerId := by simpa using Table.of_find hfind
    exact ⟨account, _, haccount' _, filter_reads h rfl, .entertainer w s s e htype howner (Table.mem_of_find hfind)
      hverified hconfirmed hname hnumber hbank⟩
  · rename_i ownerId howner htype
    refine obeys_bind.mpr (obeys_query (fun w s _ => And.imp_left keepsGate_iff.mpr ?_) fun _ _ => trivial)
    refine resolved_goes hid h hreads rfl ⟨_, w, s, rfl⟩ fun name bankCode accountNumber reason hsend => ?_
    obtain ⟨v, hfind, hconfirmed, hname, hnumber, hbank⟩ := venueDestination_send hsend
    obtain rfl : v.id = ownerId := by simpa using Table.of_find hfind
    exact ⟨account, _, haccount' _, filter_reads h rfl, .venue w s s v htype howner (Table.mem_of_find hfind)
      hconfirmed hname hnumber hbank⟩
  · exact hunowned _

theorem processPayout_goes : Goes payoutId (processPayout payoutId) [] := by
  refine goes_query fun w s => ?_
  have hnil : Unresolved [] := fun d hd => by cases hd
  have hfind := hnil.snoc (d := .stmt (.processPayoutFind payoutId) w s s) rfl rfl rfl
  refine ⟨hfind.gateKept, ?_⟩
  have honly : OnlyReads ([] ++ [(.stmt (.processPayoutFind payoutId) w s s : Did App)]) :=
    OnlyReads.snoc (fun _ _ _ _ hmem => by cases hmem) fun _ _ _ _ heq => by cases heq; rfl
  rcases hfound : payoutWithAccount (·.id == payoutId) s with _ | ⟨payout, account⟩
  · trivial
  have hid : payout.id = payoutId := by simpa using Table.of_find (payoutWithAccount_find hfound)
  have haccount : ∀ ds, accountIn ([(.stmt (.processPayoutFind payoutId) w s s : Did App)] ++ ds) = some account :=
    fun ds => by simp [accountIn, accountOf, hfound]
  simp only
  split
  · trivial
  split
  · exact newAttempt_goes hid hfind honly (haccount [])
  rename_i reference _
  have hasked := hfind.snoc (d := .asked (.verifyTransfer reference)) rfl rfl rfl
  refine goes_request hasked.gateKept fun previous => ?_
  have hanswered := hasked.snoc (d := .answered (.verifyTransfer reference) (.ok previous)) rfl rfl rfl
  cases previous with
  | success => exact markSucceeded_goes hanswered
  | pending => trivial
  | requires_action => exact flagForOperator_goes hanswered
  | failed | reversed | not_found =>
    refine newAttempt_goes hid hanswered ?_ (haccount _)
    refine (honly.snoc ?_).snoc ?_ <;> exact fun _ _ _ _ heq => by cases heq

end Programs

/-! ### Any run -/

/-- **Money goes only through the gate, and what is withheld stays owed.** Whatever else is going on: a run of
`processPayout` calls the provider to create a recipient or to initiate a transfer only after it read one
owner, that of the payout's account, who may be paid, and with what it read; and if it holds the payout or
leaves it to a person it calls for neither, posts nothing, and changes of the payout no more than its status,
to `QUEUED` or to `FAILED`, and the reason given for it. -/
theorem money_gated {p₀ p : Pool App Operation Unit} (hruns : p₀.runs = [])
    (h : Reach services anyEvent p₀ p) : ∀ r ∈ p.runs, ∀ payoutId, r.label = .processPayout payoutId →
      GateKept payoutId r.log := by
  have hlogs : ∀ r ∈ p.runs, keepsGate r.label r.log := by
    refine recorded (fun o payoutId _ => Unresolved.gateKept fun d hd => by cases hd)
      (fun o log d hd hlog payoutId heq => (hlog payoutId heq).came hd) (fun o => ?_) hruns h
    by_cases ho : ∃ payoutId, o = .processPayout payoutId
    · obtain ⟨payoutId, rfl⟩ := ho
      exact processPayout_goes
    · exact records_any (fun ds payoutId heq => absurd ⟨payoutId, heq⟩ ho) _
  exact fun r hr payoutId hlabel => hlogs r hr payoutId hlabel

/-! ### A run: sent, and then held -/

lemma unconfirmed_keys : ([{ sampleEntertainer with accountConfirmedAt := none }].flatMap Indexed.keys).Nodup := by
  decide

/-- The entertainer is about to be paid to another account. -/
def unconfirmedDb : Db :=
  { payoutDb with entertainers := ⟨[{ sampleEntertainer with accountConfirmedAt := none }], unconfirmed_keys⟩ }

/-- A first attempt is sent. Then the account is not confirmed any more; the attempt failed, and there is no
second one. -/
def sentThenHeld : List (Event App Operation Db) :=
  firstPending 0 ++ [.move unconfirmedDb] ++ verifies 1 .failed ++ execs 1 [6, 7]

def hasSent (r : Run App Operation) : Bool :=
  r.log.any fun d => (transferOf d).isSome

theorem money_gated_sample : ∃ p, run services ⟨payoutDb, (), []⟩ sentThenHeld = some p ∧
    (p.runs.map hasSent = [true, false]) ∧ (p.runs.map fun r => withheldIn r.log) = [none, some .QUEUED] ∧
    ∀ r ∈ p.runs, ∀ payoutId, r.label = .processPayout payoutId → GateKept payoutId r.log := by
  have hrun : ((run services ⟨payoutDb, (), []⟩ sentThenHeld).any fun p =>
      (p.runs.map hasSent == [true, false]) &&
        (p.runs.map fun r => withheldIn r.log) == [none, some .QUEUED]) = true := by decide +kernel
  obtain ⟨p, hp, hsent⟩ := (Option.any_eq_true _ _).mp hrun
  simp only [Bool.and_eq_true, beq_iff_eq] at hsent
  exact ⟨p, hp, hsent.1, hsent.2, money_gated rfl (reach_of_run (along_any _) hp)⟩

end Splitcore.Money
