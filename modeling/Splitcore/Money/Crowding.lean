import Mathlib.Data.Set.Card
import Splitcore.Money.Swept
import Splitcore.Relational.Limit

/-!
The batch of the sweep: what its limit leaves out, since it is taken before the gates are asked, and what
the gates leave out that is not for them.
-/

namespace Splitcore.Money

open Relational Interleaving Ledger

/-- A payout that is due, with its account. -/
def dueRow (now : Time) (db : Db) (payout : Payout) : Option (Uuid × LedgerAccount) := do
  let account ← db.ledgerAccounts.find (·.id == payout.ledgerAccountId)
  if isCandidate now payout account then some (payout.id, account) else none

/-- The payouts that are due: what the query matches before its limit. -/
def dueRows (now : Time) (db : Db) : List (Uuid × LedgerAccount) := db.payouts.rows.filterMap (dueRow now db)

/-- The owner of the account is payable. -/
def passesGate (db : Db) (account : LedgerAccount) : Bool :=
  account.ownerId.any fun ownerId =>
    account.type == .ENTERTAINER_PAYABLE && db.entertainers.rows.any (fun e =>
      e.id == ownerId && e.kycStatus == .VERIFIED && e.accountConfirmedAt.isSome) ||
    account.type == .VENUE_PAYABLE && db.venues.rows.any (fun v => v.id == ownerId && v.accountConfirmedAt.isSome)

/-- Nobody owns an entertainer's account and a venue's. -/
def SeparateOwners (db : Db) : Prop := ∀ a ∈ db.ledgerAccounts.rows, ∀ b ∈ db.ledgerAccounts.rows,
  a.type = .ENTERTAINER_PAYABLE → b.type = .VENUE_PAYABLE → a.ownerId ≠ b.ownerId

/-- The due payouts in the order the database returns them. -/
def orderedRows (w : Input) (db : Db) : List (Uuid × LedgerAccount) :=
  (db.payouts.rows.insertionSort fun p q => w.rank p.id ≤ w.rank q.id).filterMap (dueRow w.now db)

variable {w : Input} {o : (q : Ask) → Except Err (Ans q)} {db : Db} {account : LedgerAccount} {id ownerId : Uuid}
  {now : Time} {candidates : List (Uuid × LedgerAccount)} {c d : Uuid × LedgerAccount}

/-! ### The batch -/

lemma sweepCandidates_run : sweepCandidates.run w db = .ok ((orderedRows w db).take 500, db) := rfl

lemma orderedRows_perm : (orderedRows w db).Perm (dueRows w.now db) := (List.perm_insertionSort _ _).filterMap _

lemma mem_dueRows : c ∈ dueRows now db ↔ ∃ payout ∈ db.payouts.rows, payout.id = c.1 ∧
    db.ledgerAccounts.find (·.id == payout.ledgerAccountId) = some c.2 ∧ isCandidate now payout c.2 = true := by
  rw [dueRows, List.mem_filterMap]
  refine exists_congr fun payout => and_congr_right fun _ => ?_
  unfold dueRow
  rcases hfind : db.ledgerAccounts.find (·.id == payout.ledgerAccountId) with _ | account
  · simp
  · simp only [bind, Option.bind, Option.some.injEq]
    split
    · rename_i hcandidate
      constructor
      · intro heq
        obtain rfl : (payout.id, account) = c := Option.some.inj heq
        exact ⟨rfl, rfl, hcandidate⟩
      · rintro ⟨hid, rfl, -⟩
        rw [hid]
    · rename_i hcandidate
      refine iff_of_false (by simp) ?_
      rintro ⟨-, rfl, hmatches⟩
      exact hcandidate hmatches

lemma dueRow_id {payout : Payout} (h : dueRow now db payout = some c) : payout.id = c.1 := by
  obtain ⟨account, -, h⟩ := Option.bind_eq_some_iff.mp h
  split at h
  · exact congrArg Prod.fst (Option.some.inj h)
  · cases h

/-- A payout is due with one account. -/
lemma dueRows_functional (hc : c ∈ dueRows now db) (hd : d ∈ dueRows now db) (hid : c.1 = d.1) : c = d := by
  obtain ⟨p, hp, hpid, hpaccount, -⟩ := mem_dueRows.mp hc
  obtain ⟨q, hq, hqid, hqaccount, -⟩ := mem_dueRows.mp hd
  obtain rfl : p = q := Table.eq_of_key (k := .id c.1) hp hq (by simp [Indexed.keys, hpid])
    (by simp [Indexed.keys, hqid, hid])
  exact Prod.ext hid (Option.some.inj (hpaccount.symm.trans hqaccount))

lemma dueRows_nodup : (dueRows now db).Nodup := by
  have hids : db.payouts.rows.Pairwise fun p q => p.id ≠ q.id := by
    refine (Table.nodup_rows (t := db.payouts)).imp_of_mem fun {p q} hp hq hne heq => hne ?_
    exact Table.eq_of_key (k := .id p.id) hp hq (by simp [Indexed.keys]) (by simp [Indexed.keys, heq])
  refine hids.filterMap _ fun p q hne c hc d hd heq => hne ?_
  rw [dueRow_id hc, dueRow_id hd, heq]

/-! ### The gates -/

lemma passesGate_iff : passesGate db account = true ↔ ∃ ownerId, account.ownerId = some ownerId ∧
    ((account.type = .ENTERTAINER_PAYABLE ∧ ∃ e ∈ db.entertainers.rows, e.id = ownerId ∧ e.kycStatus = .VERIFIED ∧
        e.accountConfirmedAt ≠ none) ∨
      (account.type = .VENUE_PAYABLE ∧ ∃ v ∈ db.venues.rows, v.id = ownerId ∧ v.accountConfirmedAt ≠ none)) := by
  simp only [passesGate, Option.any_eq_true, Bool.or_eq_true, Bool.and_eq_true, beq_iff_eq, List.any_eq_true,
    Option.isSome_iff_ne_none, and_assoc]

/-- The two queries find every owner that passes its gate. -/
lemma payableOwner_of_passes (hc : c ∈ candidates) (h : passesGate db c.2 = true) :
    ∃ ownerId, c.2.ownerId = some ownerId ∧ PayableOwner db candidates ownerId := by
  obtain ⟨ownerId, howner, ⟨htype, e, he, hid, hgate⟩ | ⟨htype, v, hv, hid, hgate⟩⟩ := passesGate_iff.mp h
  · exact ⟨ownerId, howner, .inl ⟨e, he, hid, mem_ownerIdsFor.mpr ⟨c, hc, htype, howner⟩, hgate⟩⟩
  · exact ⟨ownerId, howner, .inr ⟨v, hv, hid, mem_ownerIdsFor.mpr ⟨c, hc, htype, howner⟩, hgate⟩⟩

/-- They find no other when nobody is both an entertainer and a venue. -/
lemma passes_of_payableOwner (hseparate : SeparateOwners db) (hbatch : ∀ d ∈ candidates, d ∈ dueRows now db)
    (hc : c ∈ candidates) (howner : c.2.ownerId = some ownerId) (h : PayableOwner db candidates ownerId) :
    passesGate db c.2 = true := by
  have hknown : ∀ d ∈ candidates, d.2 ∈ db.ledgerAccounts.rows ∧ isPayable d.2.type = true := fun d hd => by
    obtain ⟨payout, -, -, haccount, hcandidate⟩ := mem_dueRows.mp (hbatch d hd)
    exact ⟨Table.mem_of_find haccount, (Bool.and_eq_true _ _ ▸ hcandidate).1⟩
  obtain ⟨hmem, hpayable⟩ := hknown c hc
  rw [passesGate_iff]
  refine ⟨ownerId, howner, ?_⟩
  rcases h with ⟨e, he, hid, hids, hgate⟩ | ⟨v, hv, hid, hids, hgate⟩
  · obtain ⟨d, hd, htype, hdowner⟩ := mem_ownerIdsFor.mp hids
    rcases hctype : c.2.type with _ | _ | _ | _
    case PLATFORM_REVENUE | PROCESSOR_CLEARING =>
      rw [hctype] at hpayable
      cases hpayable
    case ENTERTAINER_PAYABLE => exact .inl ⟨rfl, e, he, hid, hgate⟩
    case VENUE_PAYABLE =>
      exact absurd (hdowner.trans howner.symm) (hseparate d.2 (hknown d hd).1 c.2 hmem htype hctype)
  · obtain ⟨d, hd, htype, hdowner⟩ := mem_ownerIdsFor.mp hids
    rcases hctype : c.2.type with _ | _ | _ | _
    case PLATFORM_REVENUE | PROCESSOR_CLEARING =>
      rw [hctype] at hpayable
      cases hpayable
    case ENTERTAINER_PAYABLE =>
      exact absurd (howner.trans hdowner.symm) (hseparate c.2 hmem d.2 (hknown d hd).1 hctype htype)
    case VENUE_PAYABLE => exact .inr ⟨rfl, v, hv, hid, hgate⟩

/-! ### What is enqueued -/

lemma batch_due (hc : c ∈ (orderedRows w db).take 500) : c ∈ dueRows w.now db :=
  orderedRows_perm.mem_iff.mp (List.mem_of_mem_take hc)

/-- The payouts of the batch whose owners pass. -/
def passing (w : Input) (db : Db) : List (Uuid × LedgerAccount) :=
  ((orderedRows w db).take 500).filter fun c => passesGate db c.2

lemma enqueued_of_passing (haccepts : ∀ payoutId, o (.addPayoutJob payoutId 0) = .ok ()) (hc : c ∈ passing w db) :
    Enqueued w o db c.1 := by
  obtain ⟨hmem, hpasses⟩ := List.mem_filter.mp hc
  exact (enqueued_iff haccepts sweepCandidates_run).mpr ⟨c, hmem, rfl, payableOwner_of_passes hmem hpasses⟩

lemma passing_of_enqueued (haccepts : ∀ payoutId, o (.addPayoutJob payoutId 0) = .ok ())
    (hseparate : SeparateOwners db) (h : Enqueued w o db id) : ∃ c ∈ passing w db, c.1 = id := by
  obtain ⟨c, hc, hid, ownerId, howner, hpayable⟩ := (enqueued_iff haccepts sweepCandidates_run).mp h
  exact ⟨c, List.mem_filter.mpr ⟨hc, passes_of_payableOwner hseparate (fun d => batch_due) hc howner hpayable⟩, hid⟩

lemma passing_ids_nodup : ((passing w db).map Prod.fst).Nodup := by
  have hnodup : (passing w db).Nodup :=
    ((orderedRows_perm.nodup_iff.mpr dueRows_nodup).sublist (List.take_sublist _ _)).filter _
  refine hnodup.map_on fun c hc d hd hid => ?_
  exact dueRows_functional (batch_due (List.mem_of_mem_filter hc)) (batch_due (List.mem_of_mem_filter hd)) hid

lemma passing_card : Set.ncard {id | id ∈ (passing w db).map Prod.fst} =
    ((orderedRows w db).take 500).countP fun c => passesGate db c.2 := by
  have hset : {id | id ∈ (passing w db).map Prod.fst} = ((passing w db).map Prod.fst).toFinset := by
    ext id
    simp
  rw [hset, Set.ncard_coe_finset, List.toFinset_card_of_nodup passing_ids_nodup, List.length_map,
    List.countP_eq_length_filter]
  rfl

lemma enqueued_finite (haccepts : ∀ payoutId, o (.addPayoutJob payoutId 0) = .ok ()) :
    {id | Enqueued w o db id}.Finite := by
  refine (List.finite_toSet (((orderedRows w db).take 500).map Prod.fst)).subset fun id h => ?_
  obtain ⟨c, hc, hid, -⟩ := (enqueued_iff haccepts sweepCandidates_run).mp h
  exact List.mem_map.mpr ⟨c, hc, hid⟩

lemma le_enqueued (haccepts : ∀ payoutId, o (.addPayoutJob payoutId 0) = .ok ()) :
    (((orderedRows w db).take 500).countP fun c => passesGate db c.2) ≤ {id | Enqueued w o db id}.ncard := by
  rw [← passing_card]
  refine Set.ncard_le_ncard (fun id h => ?_) (enqueued_finite haccepts)
  obtain ⟨c, hc, rfl⟩ := List.mem_map.mp h
  exact enqueued_of_passing haccepts hc

lemma enqueued_le (haccepts : ∀ payoutId, o (.addPayoutJob payoutId 0) = .ok ()) (hseparate : SeparateOwners db) :
    {id | Enqueued w o db id}.ncard ≤ ((orderedRows w db).take 500).countP fun c => passesGate db c.2 := by
  rw [← passing_card]
  refine Set.ncard_le_ncard (fun id h => ?_) (List.finite_toSet _)
  obtain ⟨c, hc, hid⟩ := passing_of_enqueued haccepts hseparate h
  exact List.mem_map.mpr ⟨c, hc, hid⟩

/-! ### The worst order -/

/-- Payouts that would be held come back first. -/
def heldFirst (now : Time) (db : Db) (payoutId : Uuid) : ℕ :=
  if (dueRows now db).any fun c => c.1 == payoutId && passesGate db c.2 then 1 else 0

lemma heldFirst_eq_one (hc : c ∈ dueRows now db) : heldFirst now db c.1 = 1 ↔ passesGate db c.2 = true := by
  have hany : (dueRows now db).any (fun d => d.1 == c.1 && passesGate db d.2) = true ↔ passesGate db c.2 = true := by
    simp only [List.any_eq_true, Bool.and_eq_true, beq_iff_eq]
    constructor
    · rintro ⟨d, hd, hid, hpasses⟩
      rwa [← dueRows_functional hd hc hid]
    · exact fun hpasses => ⟨c, hc, rfl, hpasses⟩
  rw [← hany, heldFirst]
  split <;> simp_all

lemma heldFirst_failingFirst (w : Input) (db : Db) :
    FailingFirst (fun c => passesGate db c.2) (orderedRows { w with rank := heldFirst w.now db } db) := by
  have hsorted : (orderedRows { w with rank := heldFirst w.now db } db).Pairwise fun c d =>
      heldFirst w.now db c.1 ≤ heldFirst w.now db d.1 := by
    refine (List.pairwise_insertionSort (fun p q : Payout => heldFirst w.now db p.id ≤ heldFirst w.now db q.id)
      db.payouts.rows).filterMap _ fun p q hle c hc d hd => ?_
    rwa [dueRow_id hc, dueRow_id hd] at hle
  refine hsorted.imp_of_mem fun {c d} hc hd hle hpasses => ?_
  have hone := (heldFirst_eq_one (orderedRows_perm.mem_iff.mp hc)).mpr hpasses
  refine (heldFirst_eq_one (orderedRows_perm.mem_iff.mp hd)).mp (le_antisymm ?_ (hone ▸ hle))
  unfold heldFirst
  split <;> simp

/-- As many payouts are enqueued as are payable, or the 500 that fit in one batch. -/
def SweepsItsShare (w : Input) (o : (q : Ask) → Except Err (Ans q)) (db : Db) : Prop :=
  min 500 ((dueRows w.now db).countP fun c => passesGate db c.2) ≤ {id | Enqueued w o db id}.ncard

lemma dueRows_count (w : Input) (db : Db) (rank : Uuid → ℕ) :
    ((dueRows w.now db).countP fun c => passesGate db c.2) =
      (orderedRows { w with rank := rank } db).countP fun c => passesGate db c.2 :=
  (orderedRows_perm (w := { w with rank := rank })).symm.countP_eq _

lemma sweeps_worst (haccepts : ∀ payoutId, o (.addPayoutJob payoutId 0) = .ok ()) (hseparate : SeparateOwners db)
    (h : SweepsItsShare { w with rank := heldFirst w.now db } o db) :
    NoContest 500 (fun c => passesGate db c.2) (dueRows w.now db) := by
  have hfair := h.trans (enqueued_le haccepts hseparate)
  dsimp only at hfair
  rw [dueRows_count w db (heldFirst w.now db)] at hfair
  exact (NoContest.perm (orderedRows_perm (w := { w with rank := heldFirst w.now db }))).mp
    (((heldFirst_failingFirst w db).fair_iff (by decide)).mp hfair)

/-- **When held payouts crowd out no payable ones**: in whatever order the rows come back, the sweep enqueues its
share just when the due payouts fit in one batch, or all of them are payable, or none is. -/
theorem sweeps_its_share (haccepts : ∀ payoutId, o (.addPayoutJob payoutId 0) = .ok ()) :
    (NoContest 500 (fun c => passesGate db c.2) (dueRows w.now db) → ∀ rank, SweepsItsShare { w with rank := rank } o db) ∧
    (SeparateOwners db → (∀ rank, SweepsItsShare { w with rank := rank } o db) →
      NoContest 500 (fun c => passesGate db c.2) (dueRows w.now db)) := by
  refine ⟨fun h rank => ?_, fun hseparate h => sweeps_worst haccepts hseparate (h _)⟩
  have hfair := ((NoContest.perm (orderedRows_perm (w := { w with rank := rank }))).mpr h).fair
  unfold Fair at hfair
  rw [← dueRows_count w db rank] at hfair
  exact hfair.trans (le_enqueued haccepts)

/-! ### Transfers in flight -/

/-- A transfer went out, and nothing has been heard of it for a while. -/
structure GoneQuiet (now : Time) (payout : Payout) (reference : String) : Prop where
  processing : payout.status = .PROCESSING
  sent : truthy payout.transferReference = some reference
  stale : payout.updatedAt < now - STALE_PROCESSING_MS

/-- The owner of the account of the payout is payable. -/
def OwnerPasses (db : Db) (payout : Payout) : Prop :=
  ∃ account, db.ledgerAccounts.find (·.id == payout.ledgerAccountId) = some account ∧ passesGate db account = true

/-- The provider is asked what became of the transfer when the payout is processed. -/
def AsksAbout (w : Input) (o : (q : Ask) → Except Err (Ans q)) (db : Db) (payoutId : Uuid) (reference : String) : Prop :=
  .asked (.verifyTransfer reference) ∈ (complete w o (processPayout payoutId) db).1

variable {payout : Payout} {reference : String}

/-- It is asked before the gate is. -/
lemma asksAbout_of_quiet (hmem : payout ∈ db.payouts.rows)
    (haccount : db.ledgerAccounts.find (·.id == payout.ledgerAccountId) = some account)
    (hquiet : GoneQuiet now payout reference) : AsksAbout w o db payout.id reference := by
  have hfind : db.payouts.find (·.id == payout.id) = some payout := (Table.find_eq_some names_payout).mpr ⟨hmem, by simp⟩
  have hread : payoutWithAccount (·.id == payout.id) db = some (payout, account) := by
    simp [payoutWithAccount, hfind, haccount]
  have hopen : OPEN_STATUSES.contains payout.status = true := by
    rw [hquiet.processing]
    rfl
  unfold AsksAbout processPayout
  rw [Prog.bind_eq, complete_bind_ok query_outcome, List.mem_append]
  refine .inr ?_
  simp only [hread, hopen, Bool.not_true, Bool.false_eq_true, if_false, hquiet.sent]
  exact List.mem_cons_self

lemma passesGate_payable (h : passesGate db account = true) : isPayable account.type = true := by
  obtain ⟨-, -, ⟨htype, -⟩ | ⟨htype, -⟩⟩ := passesGate_iff.mp h <;> rw [htype] <;> rfl

lemma due_of_quiet (hmem : payout ∈ db.payouts.rows) (hquiet : GoneQuiet now payout reference)
    (haccount : db.ledgerAccounts.find (·.id == payout.ledgerAccountId) = some account)
    (hpasses : passesGate db account = true) : (payout.id, account) ∈ dueRows now db := by
  refine mem_dueRows.mpr ⟨payout, hmem, rfl, haccount, ?_⟩
  simp [isCandidate, passesGate_payable hpasses, hquiet.processing, hquiet.stale]

/-- **When a transfer in flight is verified again**: of the payouts that fit in one batch, one whose transfer has
gone quiet is enqueued just when its owner passes the gate. -/
theorem quiet_transfer_swept (haccepts : ∀ payoutId, o (.addPayoutJob payoutId 0) = .ok ())
    (hfits : (dueRows w.now db).length ≤ 500) (hmem : payout ∈ db.payouts.rows) (hquiet : GoneQuiet w.now payout reference) :
    (OwnerPasses db payout → Enqueued w o db payout.id ∧ ∀ w', AsksAbout w' o db payout.id reference) ∧
    (SeparateOwners db → Enqueued w o db payout.id → OwnerPasses db payout) := by
  have hbatch : (orderedRows w db).take 500 = orderedRows w db :=
    List.take_of_length_le (orderedRows_perm.length_eq ▸ hfits)
  constructor
  · rintro ⟨account, haccount, hpasses⟩
    have hdue := due_of_quiet hmem hquiet haccount hpasses
    refine ⟨enqueued_of_passing haccepts (c := (payout.id, account)) (List.mem_filter.mpr ⟨?_, hpasses⟩),
      fun w' => asksAbout_of_quiet hmem haccount hquiet⟩
    rw [hbatch]
    exact orderedRows_perm.mem_iff.mpr hdue
  · intro hseparate henqueued
    obtain ⟨c, hc, hid⟩ := passing_of_enqueued haccepts hseparate henqueued
    obtain ⟨hin, hpasses⟩ := List.mem_filter.mp hc
    obtain ⟨payout', hmem', hid', haccount', -⟩ := mem_dueRows.mp (batch_due hin)
    obtain rfl : payout' = payout := Table.eq_of_key (k := .id payout.id) hmem' hmem
      (by simp [Indexed.keys, hid', hid]) (by simp [Indexed.keys])
    exact ⟨c.2, haccount', hpasses⟩

/-- A transfer sent an hour ago. -/
def quietPayout : Payout :=
  { samplePayout with status := .PROCESSING, attempts := 1, transferReference := some "po_11_1" }

def hourLater : Input := inputAt 3600000

lemma quietPayout_quiet : GoneQuiet hourLater.now quietPayout "po_11_1" := ⟨rfl, by decide, by decide⟩

def quietDb : Db := { payoutDb with payouts := ⟨[quietPayout], by decide⟩ }

theorem quiet_transfer_swept_sample : Enqueued hourLater agreeable quietDb quietPayout.id ∧
    AsksAbout hourLater agreeable quietDb quietPayout.id "po_11_1" := by
  have hfits : (dueRows hourLater.now quietDb).length ≤ 500 := by decide
  have hmem : quietPayout ∈ quietDb.payouts.rows := List.mem_cons_self
  have hpasses : OwnerPasses quietDb quietPayout := ⟨_, rfl, by decide⟩
  have hswept := (quiet_transfer_swept (o := agreeable) (fun _ => rfl) hfits hmem quietPayout_quiet).1 hpasses
  exact ⟨hswept.1, hswept.2 hourLater⟩

/-- The entertainer, having given another bank account in between. -/
def resubmittedEntertainer : Entertainer :=
  { sampleEntertainer with
    accountNumber := some "0987654321", resolvedAccountName := none, accountResolvedAt := none
    accountConfirmedAt := none, kycStatus := .PENDING, kycSubmittedAt := some 1800000, kycVerifiedAt := none
    identityCheckType := none, identityCheckedAt := none }

def resubmittedDb : Db := { quietDb with entertainers := ⟨[resubmittedEntertainer], by decide⟩ }

theorem quiet_transfer_forgotten : quietPayout ∈ resubmittedDb.payouts.rows ∧
    GoneQuiet hourLater.now quietPayout "po_11_1" ∧ (dueRows hourLater.now resubmittedDb).length ≤ 500 ∧
    ¬Enqueued hourLater agreeable resubmittedDb quietPayout.id := by
  refine ⟨List.mem_cons_self, quietPayout_quiet, by decide, fun h => ?_⟩
  have hseparate : SeparateOwners resubmittedDb := by
    unfold SeparateOwners
    decide
  obtain ⟨c, hc, -⟩ := passing_of_enqueued (fun _ => rfl) hseparate h
  have hnone : passing hourLater resubmittedDb = [] := by decide
  rw [hnone] at hc
  cases hc

/-! ### A crowded table -/

/-- Somebody whose identity is not checked yet. -/
def unverifiedEntertainer : Entertainer :=
  { sampleEntertainer with id := uid 6, phone := "0801", kycStatus := .PENDING, kycVerifiedAt := none }

/-- One of their payouts. -/
def heldPayout (n : ℕ) : Payout :=
  { samplePayout with id := uid (1000 + n), ledgerAccountId := uid 20, transactionId := uid (1000 + n) }

lemma uid_inj {m n : ℕ} (hm : m < 2 ^ 128) (hn : n < 2 ^ 128) (h : uid m = uid n) : m = n := by
  have hbits : (BitVec.ofNat 128 m).toNat = (BitVec.ofNat 128 n).toNat := congrArg (fun u : Uuid => u.bits.toNat) h
  rwa [BitVec.toNat_ofNat, BitVec.toNat_ofNat, Nat.mod_eq_of_lt hm, Nat.mod_eq_of_lt hn] at hbits

lemma heldPayouts_keys : ((samplePayout :: (List.range 500).map heldPayout).flatMap Indexed.keys).Nodup := by
  have hkeys : ∀ p : Payout, p.transferReference = none →
      Indexed.keys p = [Key.id p.id, Key.pair p.ledgerAccountId p.transactionId] := fun p hp => by
    simp [Indexed.keys, hp]
  rw [List.flatMap_cons, List.flatMap_map, List.nodup_append]
  refine ⟨by decide, List.nodup_flatMap.mpr ⟨fun n _ => ?_, ?_⟩, ?_⟩
  · rw [hkeys _ rfl]
    simp
  · refine List.nodup_range.imp_of_mem fun {m n} hm hn hne => ?_
    have hid : uid (1000 + m) ≠ uid (1000 + n) := fun heq => by
      have hsum := uid_inj (by simp at hm; omega) (by simp at hn; omega) heq
      omega
    simp [Function.onFun, hkeys, heldPayout, samplePayout, Ne.symm hid]
  · intro a ha b hb
    obtain ⟨n, hn, hb⟩ := List.mem_flatMap.mp hb
    have hid : ∀ k < 1000, uid k ≠ uid (1000 + n) := fun k hk heq => by
      have hsum := uid_inj (by omega) (by simp at hn; omega) heq
      omega
    rw [hkeys _ rfl] at ha hb
    simp only [List.mem_cons, List.not_mem_nil, or_false] at ha hb
    rcases ha with rfl | rfl <;> rcases hb with rfl | rfl <;> simp [samplePayout, heldPayout, hid]

/-- A payout that may go out, among 500 held ones. -/
def crowdedDb : Db :=
  { ledgerAccounts := ⟨[⟨uid 10, .ENTERTAINER_PAYABLE, some (uid 3)⟩, ⟨uid 20, .ENTERTAINER_PAYABLE, some (uid 6)⟩], by decide⟩
    payouts := ⟨samplePayout :: (List.range 500).map heldPayout, heldPayouts_keys⟩
    entertainers := ⟨[sampleEntertainer, unverifiedEntertainer], by decide⟩ }

lemma crowdedDb_separate : SeparateOwners crowdedDb := by
  unfold SeparateOwners
  decide

lemma crowdedDb_contested : ¬NoContest 500 (fun c => passesGate crowdedDb c.2) (dueRows 1 crowdedDb) := by
  have hdue : (dueRows 1 crowdedDb).length = 501 := by decide +kernel
  have hpayable : ((dueRows 1 crowdedDb).countP fun c => passesGate crowdedDb c.2) = 1 := by decide +kernel
  unfold NoContest
  omega

theorem sweeps_its_share_sample : SweepsItsShare (inputAt 1) agreeable mixedDb ∧
    ∃ rank, ¬SweepsItsShare { inputAt 1 with rank := rank } agreeable crowdedDb := by
  have hfits : NoContest 500 (fun c => passesGate mixedDb c.2) (dueRows 1 mixedDb) := .inl (by decide)
  refine ⟨(sweeps_its_share (w := inputAt 1) fun _ => rfl).1 hfits (inputAt 1).rank, ?_⟩
  by_contra h
  exact crowdedDb_contested ((sweeps_its_share (w := inputAt 1) fun _ => rfl).2 crowdedDb_separate fun rank =>
    not_not.mp (not_exists.mp h rank))

/-- When the held ones come back first, nothing is enqueued. -/
theorem payable_crowded_out :
    ¬SweepsItsShare { inputAt 1 with rank := heldFirst 1 crowdedDb } agreeable crowdedDb := fun h =>
  crowdedDb_contested (sweeps_worst (w := inputAt 1) (fun _ => rfl) crowdedDb_separate h)

end Splitcore.Money
