import Splitcore.Dashboard.Service
import Splitcore.Money.Services

/-!
A venue's table of performers: who has a row, and what the sums of a row range over.
-/

namespace Splitcore.Dashboard

open Relational Ledger Bookkeeping Money

/-- The entertainer performs at the venue: active, and linked to it. -/
def Performs (venueId : Uuid) (db : Db) (entertainer : Entertainer) : Prop :=
  entertainer ∈ db.entertainers.rows ∧ entertainer.isActive = true ∧
    ∃ ve ∈ db.venueEntertainers.rows, ve.venueId = venueId ∧ ve.entertainerId = entertainer.id

/-- The credits of the entertainer's payable account. -/
def payableCredits (entertainerId : Uuid) (db : Db) : List LedgerEntry :=
  db.ledgerEntries.filter fun e =>
    isOn db.ledgerAccounts (isAccount .ENTERTAINER_PAYABLE (some entertainerId)) e && e.direction == .CREDIT

/-- Those for the venue's payments, from a time on if there is one. -/
def venueCredits (venueId entertainerId : Uuid) (start : Option Time) (db : Db) : ℤ :=
  sumOf (fun e => paidAt venueId db e.transactionId && start.all (· ≤ e.createdAt)) (·.amountKobo)
    (payableCredits entertainerId db)

/-- The table has one row for each performer, no other, and sums up this venue's money. -/
structure EveryPerformer (nameLe : String → String → Bool) (venueId : Uuid) (now : Time) (db : Db) : Prop where
  one : ∀ entertainer, Performs venueId db entertainer →
    ((venueEntertainerEarnings nameLe venueId now db).filter (·.entertainerId == entertainer.id)).length = 1
  only : ∀ row ∈ venueEntertainerEarnings nameLe venueId now db, ∃ entertainer, Performs venueId db entertainer ∧
    row.entertainerId = entertainer.id ∧ row.stageName = entertainer.stageName
  sums : ∀ row ∈ venueEntertainerEarnings nameLe venueId now db,
    row.tonightKobo = venueCredits venueId row.entertainerId (some (tonight now).start) db ∧
    row.thisWeekKobo = venueCredits venueId row.entertainerId (some (thisWeek now).start) db ∧
    row.totalKobo = venueCredits venueId row.entertainerId none db

/-- The entertainer has no income, or has some at the venue. -/
def NotOnlyElsewhere (venueId : Uuid) (db : Db) (entertainer : Entertainer) : Prop :=
  payableCredits entertainer.id db = [] ∨
    ∃ e ∈ payableCredits entertainer.id db, paidAt venueId db e.transactionId = true

variable {nameLe : String → String → Bool} {venueId : Uuid} {now : Time} {db : Db} {entertainer : Entertainer}
  {start : Option Time}

/-! ### What the joins give -/

lemma payableCredits_account {account : LedgerAccount} (hfind :
    db.ledgerAccounts.find (isAccount .ENTERTAINER_PAYABLE (some entertainer.id)) = some account) :
    payableCredits entertainer.id db =
      db.ledgerEntries.filter fun e => e.accountId == account.id && e.direction == .CREDIT :=
  List.filter_congr fun e _ => by rw [isOn_account hfind]

lemma payableCredits_none (hfind :
    db.ledgerAccounts.find (isAccount .ENTERTAINER_PAYABLE (some entertainer.id)) = none) :
    payableCredits entertainer.id db = [] :=
  List.filter_eq_nil_iff.mpr fun e _ => by simp [isOn_none hfind]

/-- The entries an entertainer is joined with. -/
lemma entriesOf_eq : entriesOf venueId db entertainer =
    if (payableCredits entertainer.id db).isEmpty then [none]
    else ((payableCredits entertainer.id db).filter fun e => paidAt venueId db e.transactionId).map some := by
  unfold entriesOf
  rcases hfind : db.ledgerAccounts.find (isAccount .ENTERTAINER_PAYABLE (some entertainer.id)) with _ | account
  · rw [payableCredits_none hfind]
  · rw [payableCredits_account hfind]

/-- **An entertainer drops out of the joins** whose income is all elsewhere. -/
lemma entriesOf_ne_nil : entriesOf venueId db entertainer ≠ [] ↔ NotOnlyElsewhere venueId db entertainer := by
  rw [entriesOf_eq, NotOnlyElsewhere]
  split
  · rename_i hempty
    simp [List.isEmpty_iff.mp hempty]
  · rename_i hsome
    have hne : payableCredits entertainer.id db ≠ [] := fun h => hsome (List.isEmpty_iff.mpr h)
    simp [hne, List.filter_eq_nil_iff]

lemma entriesOf_total : sumOf (·.any fun e => start.all (· ≤ e.createdAt)) (·.elim 0 (·.amountKobo))
      (entriesOf venueId db entertainer) = venueCredits venueId entertainer.id start db := by
  rw [entriesOf_eq, venueCredits]
  split
  · rename_i hempty
    rw [List.isEmpty_iff.mp hempty]
    rfl
  · rw [sumOf_map, ← sumOf_filter, List.filter_filter, sumOf_filter]
    refine sumOf_congr fun e _ => ?_
    simp [Bool.and_comm]

/-- An entertainer is in the rows of the joins as often as it is joined with an entry. -/
lemma mem_earningsRows {row : Entertainer × Option LedgerEntry} : row ∈ earningsRows venueId db ↔
    Performs venueId db row.1 ∧ row.2 ∈ entriesOf venueId db row.1 := by
  rw [earningsRows, List.mem_flatMap]
  constructor
  · rintro ⟨ve, hve, hrow⟩
    obtain ⟨hmem, hvenue⟩ := List.mem_filter.mp hve
    unfold rowsOf at hrow
    rcases hfind : db.entertainers.find (·.id == ve.entertainerId) with _ | entertainer <;>
      simp only [hfind, List.not_mem_nil] at hrow
    obtain ⟨hin, hid⟩ := (Table.find_eq_some names_entertainer).mp hfind
    split at hrow
    · rename_i hactive
      obtain ⟨e, he, rfl⟩ := List.mem_map.mp hrow
      exact ⟨⟨hin, hactive, ve, hmem, beq_iff_eq.mp hvenue, (beq_iff_eq.mp hid).symm⟩, he⟩
    · cases hrow
  · rintro ⟨⟨hin, hactive, ve, hmem, hvenue, hid⟩, he⟩
    refine ⟨ve, List.mem_filter.mpr ⟨hmem, beq_iff_eq.mpr hvenue⟩, ?_⟩
    have hfind : db.entertainers.find (·.id == ve.entertainerId) = some row.1 :=
      (Table.find_eq_some names_entertainer).mpr ⟨hin, by simp [hid]⟩
    simp only [rowsOf, hfind, if_pos hactive]
    exact List.mem_map.mpr ⟨row.2, he, rfl⟩

/-! ### The rows of the table -/

/-- A row of the table is a group of the rows of the joins. -/
lemma mem_table {r : EntertainerEarningsRow} (h : r ∈ venueEntertainerEarnings nameLe venueId now db) :
    ∃ row ∈ earningsRows venueId db, r.entertainerId = row.1.id ∧ r.stageName = row.1.stageName ∧
      r.tonightKobo = groupSum (groupKey row) (some (tonight now).start) (earningsRows venueId db) ∧
      r.thisWeekKobo = groupSum (groupKey row) (some (thisWeek now).start) (earningsRows venueId db) ∧
      r.totalKobo = groupSum (groupKey row) none (earningsRows venueId db) := by
  rw [venueEntertainerEarnings, List.mem_insertionSort, List.mem_map] at h
  obtain ⟨key, hkey, rfl⟩ := h
  obtain ⟨row, hrow, rfl⟩ := List.mem_map.mp (List.mem_dedup.mp hkey)
  exact ⟨row, hrow, rfl, rfl, rfl, rfl, rfl⟩

/-- A performer has as many rows as there are groups under its key. -/
lemma rows_count (hperf : Performs venueId db entertainer) :
    ((venueEntertainerEarnings nameLe venueId now db).filter (·.entertainerId == entertainer.id)).length =
      ((earningsRows venueId db).map groupKey).dedup.count (entertainer.id, entertainer.stageName) := by
  rw [venueEntertainerEarnings, ((List.perm_insertionSort _ _).filter _).length_eq, List.filter_map,
    List.length_map, List.count, List.countP_eq_length_filter]
  refine congrArg List.length (List.filter_congr fun key hkey => ?_)
  obtain ⟨row, hrow, rfl⟩ := List.mem_map.mp (List.mem_dedup.mp hkey)
  -- who has the performer's id is the performer
  have hsame : row.1.id = entertainer.id → row.1 = entertainer := fun hid =>
    Table.eq_of_key (k := .id row.1.id) (mem_earningsRows.mp hrow).1.1 hperf.1 (by simp [Indexed.keys])
      (by simp [Indexed.keys, hid])
  rw [Bool.eq_iff_iff]
  simp only [Function.comp_apply, groupKey, beq_iff_eq, Prod.mk.injEq]
  exact ⟨fun hid => ⟨hid, congrArg Entertainer.stageName (hsame hid)⟩, And.left⟩

lemma key_mem (hperf : Performs venueId db entertainer) :
    (entertainer.id, entertainer.stageName) ∈ (earningsRows venueId db).map groupKey ↔
      NotOnlyElsewhere venueId db entertainer := by
  rw [← entriesOf_ne_nil, List.mem_map]
  constructor
  · rintro ⟨row, hrow, hkey⟩
    obtain ⟨⟨hin, -⟩, hentry⟩ := mem_earningsRows.mp hrow
    have hid : row.1.id = entertainer.id := congrArg Prod.fst hkey
    obtain rfl : row.1 = entertainer := Table.eq_of_key (k := .id entertainer.id) hin hperf.1
      (by simp [Indexed.keys, hid]) (by simp [Indexed.keys])
    exact List.ne_nil_of_mem hentry
  · intro hne
    obtain ⟨e, he⟩ := List.exists_mem_of_ne_nil _ hne
    exact ⟨(entertainer, e), mem_earningsRows.mpr ⟨hperf, he⟩, rfl⟩

/-- **A performer has a row, unless its income is all elsewhere.** -/
lemma one_row (hperf : Performs venueId db entertainer) :
    ((venueEntertainerEarnings nameLe venueId now db).filter (·.entertainerId == entertainer.id)).length = 1 ↔
      NotOnlyElsewhere venueId db entertainer := by
  rw [rows_count hperf, ← key_mem hperf, List.Nodup.count (List.nodup_dedup _)]
  simp only [List.mem_dedup]
  split <;> simp [*]

/-- **The table is complete** exactly if no performer's income is all at other venues. -/
theorem every_performer : EveryPerformer nameLe venueId now db ↔
    ∀ entertainer, Performs venueId db entertainer → NotOnlyElsewhere venueId db entertainer := by
  refine ⟨fun h entertainer hperf => (one_row hperf).mp (h.one entertainer hperf), fun h => ?_⟩
  refine ⟨fun entertainer hperf => (one_row hperf).mpr (h entertainer hperf), fun r hr => ?_, fun r hr => ?_⟩
  · obtain ⟨row, hrow, hid, hname, -⟩ := mem_table hr
    exact ⟨row.1, (mem_earningsRows.mp hrow).1, hid, hname⟩
  · obtain ⟨row, hrow, hid, -, htonight, hweek, htotal⟩ := mem_table hr
    rw [htonight, hweek, htotal, hid]
    simp only [groupSum_rows _ hrow, entriesOf_total, and_self]

/-! ### A performer whose only tip was at another venue -/

/-- It was paid, and posted, at one venue, and its entertainer is linked to the other. -/
def tippedElsewhere : Db :=
  { payments := ⟨[{ samplePayment with status := .SUCCESS }], by decide⟩
    splitRules := ⟨[sampleRule], sampleRule_keys⟩
    entertainers := ⟨[sampleEntertainer], sampleEntertainer_keys⟩
    venues := ⟨[⟨uid 2, "The Bar", "the-bar", true, none, none, none, none, none, none⟩,
      ⟨uid 7, "Quilox", "quilox", true, none, none, none, none, none, none⟩], by decide⟩
    venueEntertainers := ⟨[⟨uid 8, uid 7, uid 3⟩], by decide⟩
    ledgerAccounts := ⟨[⟨uid 9, .PROCESSOR_CLEARING, none⟩, ⟨uid 10, .ENTERTAINER_PAYABLE, some (uid 3)⟩,
      ⟨uid 11, .VENUE_PAYABLE, some (uid 2)⟩, ⟨uid 12, .PLATFORM_REVENUE, none⟩], by decide⟩
    postings := [⟨.settlement, uid 1, [⟨uid 1, uid 9, .DEBIT, 10000, 1⟩, ⟨uid 1, uid 10, .CREDIT, 8500, 1⟩,
      ⟨uid 1, uid 11, .CREDIT, 1000, 1⟩, ⟨uid 1, uid 12, .CREDIT, 500, 1⟩]⟩] }

theorem performer_left_out : ¬ EveryPerformer (fun _ _ => true) (uid 7) 13 tippedElsewhere := by
  intro h
  have hone := h.one sampleEntertainer
    ⟨by decide, rfl, ⟨uid 8, uid 7, uid 3⟩, by decide, rfl, rfl⟩
  exact absurd hone (by decide)

end Splitcore.Dashboard
