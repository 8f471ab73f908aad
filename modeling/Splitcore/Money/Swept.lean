import Splitcore.Interleaving.Outcome
import Splitcore.Money.Services

/-!
The gate of the sweep, two queries over a whole batch, and the gate of `resolveDestination`, one payout
at a time.
-/

namespace Splitcore.Money

open Relational Interleaving Ledger

/-- The owner of a payable account exists, and the ids of entertainers are none of venues. -/
structure Owned (db : Db) : Prop where
  distinct : ∀ e ∈ db.entertainers.rows, ∀ v ∈ db.venues.rows, e.id ≠ v.id
  entertainer : ∀ a ∈ db.ledgerAccounts.rows, a.type = .ENTERTAINER_PAYABLE →
    ∃ e ∈ db.entertainers.rows, a.ownerId = some e.id
  venue : ∀ a ∈ db.ledgerAccounts.rows, a.type = .VENUE_PAYABLE → ∃ v ∈ db.venues.rows, a.ownerId = some v.id

/-- The payout would be held. -/
def WouldHold (w : Input) (o : (q : Ask) → Except Err (Ans q)) (db : Db) (account : LedgerAccount) : Prop :=
  ∃ reason, (outcome w o (resolveDestination account) db).1 = .ok (.hold reason)

/-- What the two queries of the sweep find of an owner. -/
def PayableOwner (db : Db) (candidates : List (Uuid × LedgerAccount)) (ownerId : Uuid) : Prop :=
  (∃ e ∈ db.entertainers.rows, e.id = ownerId ∧ ownerId ∈ ownerIdsFor .ENTERTAINER_PAYABLE candidates ∧
    e.kycStatus = .VERIFIED ∧ e.accountConfirmedAt ≠ none) ∨
  ∃ v ∈ db.venues.rows, v.id = ownerId ∧ ownerId ∈ ownerIdsFor .VENUE_PAYABLE candidates ∧
    v.accountConfirmedAt ≠ none

variable {w : Input} {o : (q : Ask) → Except Err (Ans q)} {db : Db} {account : LedgerAccount} {id ownerId : Uuid}
  {candidates : List (Uuid × LedgerAccount)}

/-! ### One payout -/

lemma entertainerDestination_hold {e : Entertainer} : (∃ reason, entertainerDestination (some e) = .hold reason) ↔
    ¬(e.kycStatus = .VERIFIED ∧ e.accountConfirmedAt ≠ none) := by
  unfold entertainerDestination
  dsimp only
  split
  · rename_i hgate
    refine iff_of_true ⟨_, rfl⟩ fun hpayable => ?_
    exact hgate.elim (fun h => h hpayable.1) hpayable.2
  · rename_i hgate
    rw [not_or, not_not] at hgate
    refine iff_of_false ?_ (not_not_intro hgate)
    rintro ⟨reason, heq⟩
    split at heq
    · split at heq <;> cases heq
    · cases heq

lemma venueDestination_hold {v : Venue} : (∃ reason, venueDestination (some v) = .hold reason) ↔
    ¬v.accountConfirmedAt ≠ none := by
  unfold venueDestination
  dsimp only
  split
  · rename_i hgate
    exact iff_of_true ⟨_, rfl⟩ (not_not_intro hgate)
  · rename_i hgate
    refine iff_of_false ?_ (not_not_intro hgate)
    rintro ⟨reason, heq⟩
    split at heq
    · split at heq <;> cases heq
    · cases heq

lemma holds_entertainer {e : Entertainer} (htype : account.type = .ENTERTAINER_PAYABLE)
    (he : e ∈ db.entertainers.rows) (howner : account.ownerId = some e.id) :
    WouldHold w o db account ↔ ¬(e.kycStatus = .VERIFIED ∧ e.accountConfirmedAt ≠ none) := by
  have hfind : db.entertainers.find (·.id == e.id) = some e := (Table.find_eq_some names_entertainer).mpr ⟨he, by simp⟩
  have hdestination : (outcome w o (resolveDestination account) db).1 = .ok (entertainerDestination (some e)) := by
    rw [resolveDestination, howner, htype, ← hfind]
    rfl
  rw [WouldHold, hdestination, ← entertainerDestination_hold]
  simp only [Except.ok.injEq]

lemma holds_venue {v : Venue} (htype : account.type = .VENUE_PAYABLE) (hv : v ∈ db.venues.rows)
    (howner : account.ownerId = some v.id) : WouldHold w o db account ↔ ¬v.accountConfirmedAt ≠ none := by
  have hfind : db.venues.find (·.id == v.id) = some v := (Table.find_eq_some names_venue).mpr ⟨hv, by simp⟩
  have hdestination : (outcome w o (resolveDestination account) db).1 = .ok (venueDestination (some v)) := by
    rw [resolveDestination, howner, htype, ← hfind]
    rfl
  rw [WouldHold, hdestination, ← venueDestination_hold]
  simp only [Except.ok.injEq]

/-! ### The batch -/

lemma mem_ownerIdsFor {type : LedgerAccountType} :
    ownerId ∈ ownerIdsFor type candidates ↔ ∃ c ∈ candidates, c.2.type = type ∧ c.2.ownerId = some ownerId := by
  rw [ownerIdsFor, List.mem_filterMap]
  refine exists_congr fun c => and_congr_right fun _ => ?_
  split <;> simp_all

/-- **The gates agree** on what is in the batch: no owner is taken for another's. -/
theorem payableOwner_iff (howned : Owned db) (hmem : account ∈ db.ledgerAccounts.rows)
    (hpayable : isPayable account.type = true) (hbatch : (id, account) ∈ candidates) :
    (∃ ownerId, account.ownerId = some ownerId ∧ PayableOwner db candidates ownerId) ↔ ¬WouldHold w o db account := by
  rcases htype : account.type with _ | _ | _ | _
  case PLATFORM_REVENUE | PROCESSOR_CLEARING =>
    rw [htype] at hpayable
    cases hpayable
  case ENTERTAINER_PAYABLE =>
    obtain ⟨e, he, howner⟩ := howned.entertainer account hmem htype
    rw [holds_entertainer htype he howner, not_not]
    constructor
    · rintro ⟨ownerId, hid, ⟨e', he', heq, -, hgate⟩ | ⟨v, hv, heq, -, -⟩⟩
      · obtain rfl : e.id = ownerId := Option.some.inj (howner.symm.trans hid)
        obtain rfl : e' = e := Table.eq_of_key (k := .id e.id) he' he (by simp [Indexed.keys, heq]) (by simp [Indexed.keys])
        exact hgate
      · obtain rfl : e.id = ownerId := Option.some.inj (howner.symm.trans hid)
        exact absurd heq.symm (howned.distinct e he v hv)
    · exact fun hgate => ⟨e.id, howner, .inl ⟨e, he, rfl, mem_ownerIdsFor.mpr ⟨_, hbatch, htype, howner⟩, hgate⟩⟩
  case VENUE_PAYABLE =>
    obtain ⟨v, hv, howner⟩ := howned.venue account hmem htype
    rw [holds_venue htype hv howner, not_not]
    constructor
    · rintro ⟨ownerId, hid, ⟨e, he, heq, -, -⟩ | ⟨v', hv', heq, -, hgate⟩⟩
      · obtain rfl : v.id = ownerId := Option.some.inj (howner.symm.trans hid)
        exact absurd heq (howned.distinct e he v hv)
      · obtain rfl : v.id = ownerId := Option.some.inj (howner.symm.trans hid)
        obtain rfl : v' = v := Table.eq_of_key (k := .id v.id) hv' hv (by simp [Indexed.keys, heq]) (by simp [Indexed.keys])
        exact hgate
    · exact fun hgate => ⟨v.id, howner, .inr ⟨v, hv, rfl, mem_ownerIdsFor.mpr ⟨_, hbatch, htype, howner⟩, hgate⟩⟩

/-! ### The sweep -/

/-- The payout was asked to be enqueued. -/
def Enqueued (w : Input) (o : (q : Ask) → Except Err (Ans q)) (db : Db) (payoutId : Uuid) : Prop :=
  .asked (.addPayoutJob payoutId 0) ∈ (complete w o enqueueDuePayouts db).1

lemma statement_silent {α : Type} {site : Site} {m : Tx α} {q : Ask} :
    .asked q ∉ (complete w o (statement site m) db).1 := by
  have hlog : (complete w o (statement site m) db).1 =
      .stmt site w db _ :: (complete w o (.ofExcept ((m.run w db).map Prod.fst)) _).1 := rfl
  rw [hlog, complete_ofExcept]
  simp

lemma enqueue_outcome (haccepts : ∀ payoutId, o (.addPayoutJob payoutId 0) = .ok ()) :
    outcome w o (enqueue id 0) db = (.ok (), db) := by
  rw [enqueue, request_outcome, haccepts]

lemma enqueueAll_outcome (haccepts : ∀ payoutId, o (.addPayoutJob payoutId 0) = .ok ()) {ids : List Uuid} :
    outcome w o (enqueueAll ids) db = (.ok (), db) := by
  induction ids with
  | nil => rfl
  | cons payoutId ids ih =>
    unfold enqueueAll
    rw [Prog.bind_eq, outcome_bind_ok (enqueue_outcome haccepts)]
    exact ih

lemma enqueueAll_asks (haccepts : ∀ payoutId, o (.addPayoutJob payoutId 0) = .ok ()) {ids : List Uuid} :
    .asked (.addPayoutJob id 0) ∈ (complete w o (enqueueAll ids) db).1 ↔ id ∈ ids := by
  induction ids with
  | nil => simp [enqueueAll, complete]
  | cons payoutId ids ih =>
    have hlog : (complete w o (enqueue payoutId 0) db).1 =
        [.asked (Ask.addPayoutJob payoutId 0), .answered (Ask.addPayoutJob payoutId 0) (o (.addPayoutJob payoutId 0))] ++
          (complete w o (Prog.ofExcept (o (.addPayoutJob payoutId 0))) db).1 := rfl
    unfold enqueueAll
    rw [Prog.bind_eq, complete_bind_ok (enqueue_outcome haccepts), List.mem_append, ih, List.mem_cons, hlog, complete_ofExcept]
    simp

lemma payableOwner_contains : (((db.entertainers.rows.filter fun e =>
      (ownerIdsFor .ENTERTAINER_PAYABLE candidates).contains e.id && e.kycStatus == .VERIFIED &&
        e.accountConfirmedAt.isSome).map (·.id)) ++
    ((db.venues.rows.filter fun v => (ownerIdsFor .VENUE_PAYABLE candidates).contains v.id &&
      v.accountConfirmedAt.isSome).map (·.id))).contains ownerId = true ↔ PayableOwner db candidates ownerId := by
  simp only [List.contains_iff_mem, List.mem_append, List.mem_map, List.mem_filter, Bool.and_eq_true, beq_iff_eq,
    Option.isSome_iff_ne_none, PayableOwner]
  refine or_congr (exists_congr fun e => ?_) (exists_congr fun v => ?_)
  · constructor
    · rintro ⟨⟨he, ⟨hids, hverified⟩, hconfirmed⟩, rfl⟩
      exact ⟨he, rfl, hids, hverified, hconfirmed⟩
    · rintro ⟨he, rfl, hids, hverified, hconfirmed⟩
      exact ⟨⟨he, ⟨hids, hverified⟩, hconfirmed⟩, rfl⟩
  · constructor
    · rintro ⟨⟨hv, hids, hconfirmed⟩, rfl⟩
      exact ⟨hv, rfl, hids, hconfirmed⟩
    · rintro ⟨hv, rfl, hids, hconfirmed⟩
      exact ⟨⟨hv, hids, hconfirmed⟩, rfl⟩

/-- What the sweep asks to be enqueued: the candidates whose owner the two queries find. -/
lemma enqueued_iff (haccepts : ∀ payoutId, o (.addPayoutJob payoutId 0) = .ok ())
    (hfetched : sweepCandidates.run w db = .ok (candidates, db)) : Enqueued w o db id ↔
      ∃ c ∈ candidates, c.1 = id ∧ ∃ ownerId, c.2.ownerId = some ownerId ∧ PayableOwner db candidates ownerId := by
  have hread : ∀ {α : Type} {site : Site} {f : Db → α} {q : Ask}, .asked q ∉ (complete w o (query site f) db).1 := by
    intro α site f q
    rintro (_ | ⟨_, ⟨⟩⟩)
  have hend : ∀ n : ℕ, .asked (Ask.addPayoutJob id 0) ∉ (complete w o (pure n : Prog App ℕ) db).1 := fun n hmem => by
    cases hmem
  unfold Enqueued enqueueDuePayouts
  rw [Prog.bind_eq, complete_bind_ok (outcome_statement_ok hfetched), List.mem_append, or_iff_right statement_silent,
    Prog.bind_eq, complete_bind_ok query_outcome, List.mem_append, or_iff_right hread, Prog.bind_eq,
    complete_bind_ok query_outcome, List.mem_append, or_iff_right hread]
  dsimp only
  rw [Prog.bind_eq, complete_bind_ok (enqueueAll_outcome haccepts), List.mem_append, enqueueAll_asks haccepts,
    or_iff_left (hend _), List.mem_map]
  refine exists_congr fun c => ?_
  rw [List.mem_filter, Option.any_eq_true, and_assoc, and_comm (b := c.1 = id)]
  refine and_congr_right fun _ => and_congr_right fun _ => exists_congr fun ownerId => ?_
  rw [payableOwner_contains]

/-- **The sweep enqueues what would not be held**: of the payouts it fetches, those for which `resolveDestination`
answers something other than `hold` on the same state. -/
theorem sweep_gate (howned : Owned db) (haccepts : ∀ payoutId, o (.addPayoutJob payoutId 0) = .ok ())
    (hfetched : sweepCandidates.run w db = .ok (candidates, db)) : ∀ c ∈ candidates,
      (Enqueued w o db c.1 ↔ ¬WouldHold w o db c.2) := by
  intro c hc
  obtain ⟨payout, hpayout, hid, haccount, hpayable⟩ := (sweepCandidates_ok hfetched).2 c hc
  rw [enqueued_iff haccepts hfetched, ← payableOwner_iff howned (Table.mem_of_find haccount) hpayable hc]
  constructor
  · rintro ⟨c', hc', heq, howner⟩
    -- the account of a payout is read from its row
    obtain ⟨payout', hpayout', hid', haccount', -⟩ := (sweepCandidates_ok hfetched).2 c' hc'
    obtain rfl : payout' = payout := Table.eq_of_key (k := .id c.1) hpayout' hpayout
      (by simp [Indexed.keys, hid', heq]) (by simp [Indexed.keys, hid])
    rw [Option.some.inj (haccount'.symm.trans haccount)] at howner
    exact howner
  · exact fun howner => ⟨c, hc, rfl, howner⟩

/-! ### A mixed batch -/

def unconfirmedVenue : Venue :=
  { id := uid 2, name := "The Shrine", slug := "the-shrine", isActive := true, bankName := some "Kuda Bank"
    bankCode := none, accountNumber := some "1111111111", resolvedAccountName := some "THE SHRINE LTD"
    accountResolvedAt := some 0, accountConfirmedAt := none }

/-- A payout of a verified entertainer, and one of a venue that has not confirmed its account. -/
def mixedDb : Db :=
  { payoutDb with
    ledgerAccounts := ⟨[⟨uid 10, .ENTERTAINER_PAYABLE, some (uid 3)⟩, ⟨uid 12, .VENUE_PAYABLE, some (uid 2)⟩], by decide⟩
    payouts := ⟨[samplePayout, { samplePayout with id := uid 13, ledgerAccountId := uid 12 }], by decide⟩
    venues := ⟨[unconfirmedVenue], by decide⟩ }

lemma mixedDb_owned : Owned mixedDb := ⟨by decide, by decide, by decide⟩

def mixedBatch : List (Uuid × LedgerAccount) :=
  [(uid 11, ⟨uid 10, .ENTERTAINER_PAYABLE, some (uid 3)⟩), (uid 13, ⟨uid 12, .VENUE_PAYABLE, some (uid 2)⟩)]

lemma mixedBatch_fetched : sweepCandidates.run (inputAt 1) mixedDb = .ok (mixedBatch, mixedDb) := rfl

theorem sweep_gate_sample :
    (Enqueued (inputAt 1) agreeable mixedDb (uid 11) ↔
      ¬WouldHold (inputAt 1) agreeable mixedDb ⟨uid 10, .ENTERTAINER_PAYABLE, some (uid 3)⟩) ∧
    (Enqueued (inputAt 1) agreeable mixedDb (uid 13) ↔
      ¬WouldHold (inputAt 1) agreeable mixedDb ⟨uid 12, .VENUE_PAYABLE, some (uid 2)⟩) :=
  ⟨sweep_gate mixedDb_owned (fun _ => rfl) mixedBatch_fetched (uid 11, _) (by simp [mixedBatch]),
    sweep_gate mixedDb_owned (fun _ => rfl) mixedBatch_fetched (uid 13, _) (by simp [mixedBatch])⟩

end Splitcore.Money
