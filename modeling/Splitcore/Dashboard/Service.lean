import Mathlib.Data.List.Dedup
import Mathlib.Data.List.Sort
import Splitcore.Ledger.Balances
import Splitcore.Money.Figures

/-!
The dashboards: what an entertainer has earned, to the entertainer and to a venue.
-/

namespace Splitcore.Dashboard

open Relational Ledger Bookkeeping Money

/-! ### Windows -/

def LAGOS_UTC_OFFSET_MINUTES : ℤ := 60

structure TimeWindow where
  start : Time
  stop : Time

/-- Midnight in Lagos, of the day that has `now`. -/
def lagosDayStart (now : Time) : Time :=
  let lagos := now + LAGOS_UTC_OFFSET_MINUTES * 60000
  let midnightLagos := lagos / (24 * 60 * 60000) * (24 * 60 * 60000)
  midnightLagos - LAGOS_UTC_OFFSET_MINUTES * 60000

def tonight (now : Time) : TimeWindow := ⟨lagosDayStart now, now⟩

def thisWeek (now : Time) : TimeWindow := ⟨lagosDayStart now - 6 * 24 * 60 * 60000, now⟩

/-! ### The service -/

def OPEN_PAYOUT_STATUSES : List PayoutStatus := [.QUEUED, .RETRYING, .PROCESSING]

structure VenueOverview where
  venueId : Uuid
  venueName : String
  windowFrom : Time
  windowTo : Time
  totalTipsKobo : ℤ
  transactionCount : ℕ
  entertainerCount : ℕ
  pendingPayoutsKobo : ℤ
  ownPendingPayoutsKobo : ℤ
  ownPaidOutKobo : ℤ
  ownPayoutAccountConfirmed : Bool
deriving DecidableEq

/-- The payment is the venue's, `SUCCESS`, and was created in the window. -/
def isTip (venueId : Uuid) (window : TimeWindow) (p : PaymentTransaction) : Bool :=
  p.venueId == venueId && p.status == .SUCCESS && window.start ≤ p.createdAt && p.createdAt ≤ window.stop

/-- `ledgerAccount: { type, ownerId }`. -/
def onAccount (type : LedgerAccountType) (ownerId : Uuid) (db : Db) (p : Payout) : Bool :=
  db.ledgerAccounts.rows.any fun a => a.id == p.ledgerAccountId && isAccount type (some ownerId) a

/-- `paymentTransaction: { venueId }`. -/
def ofVenue (venueId : Uuid) (db : Db) (p : Payout) : Bool :=
  db.payments.rows.any fun t => t.id == p.transactionId && t.venueId == venueId

def venueOverview (venueId : Uuid) (now : Time) (db : Db) : Except Err VenueOverview :=
  match db.venues.find (·.id == venueId) with
  | none => .error (.notFound ("Venue " ++ String.ofList venueId.text ++ " not found"))
  | some venue => .ok
    { venueId, venueName := venue.name
      windowFrom := (tonight now).start, windowTo := (tonight now).stop
      totalTipsKobo := sumOf (isTip venueId (tonight now)) (·.grossAmountKobo) db.payments.rows
      transactionCount := db.payments.rows.countP (isTip venueId (tonight now))
      entertainerCount := db.venueEntertainers.rows.countP fun ve => ve.venueId == venueId &&
        db.entertainers.rows.any fun e => e.id == ve.entertainerId && e.isActive
      pendingPayoutsKobo := sumOf (fun p => OPEN_PAYOUT_STATUSES.contains p.status && ofVenue venueId db p)
        (·.amountKobo) db.payouts.rows
      ownPendingPayoutsKobo := sumOf (fun p => OPEN_PAYOUT_STATUSES.contains p.status &&
        onAccount .VENUE_PAYABLE venueId db p) (·.amountKobo) db.payouts.rows
      ownPaidOutKobo := sumOf (fun p => p.status == .SUCCESS && onAccount .VENUE_PAYABLE venueId db p)
        (·.amountKobo) db.payouts.rows
      ownPayoutAccountConfirmed := venue.accountConfirmedAt.isSome }

structure EntertainerOverview where
  entertainerId : Uuid
  stageName : String
  tonightKobo : ℤ
  thisWeekKobo : ℤ
  totalKobo : ℤ
  pendingPayoutsKobo : ℤ
  paidOutKobo : ℤ
deriving DecidableEq

/-- The credits of an account, from a time on if there is one. -/
def creditsIn (accountId : Uuid) (now : Time) (start : Option Time) (db : Db) : ℤ :=
  sumOf (fun e => e.accountId == accountId && e.direction == .CREDIT &&
    start.all fun start => start ≤ e.createdAt && e.createdAt ≤ now) (·.amountKobo) db.ledgerEntries

def entertainerOverview (entertainerId : Uuid) (now : Time) (db : Db) : Except Err EntertainerOverview :=
  match db.entertainers.find (·.id == entertainerId) with
  | none => .error (.notFound ("Entertainer " ++ String.ofList entertainerId.text ++ " not found"))
  | some entertainer =>
    match db.ledgerAccounts.find (isAccount .ENTERTAINER_PAYABLE (some entertainerId)) with
    | none => .ok ⟨entertainerId, entertainer.stageName, 0, 0, 0, 0, 0⟩
    | some account => .ok
      { entertainerId, stageName := entertainer.stageName
        tonightKobo := creditsIn account.id now (some (tonight now).start) db
        thisWeekKobo := creditsIn account.id now (some (thisWeek now).start) db
        totalKobo := creditsIn account.id now none db
        pendingPayoutsKobo := sumOf (fun p => p.ledgerAccountId == account.id &&
          OPEN_PAYOUT_STATUSES.contains p.status) (·.amountKobo) db.payouts.rows
        paidOutKobo := sumOf (fun p => p.ledgerAccountId == account.id && p.status == .SUCCESS)
          (·.amountKobo) db.payouts.rows }

structure EntertainerEarningsRow where
  entertainerId : Uuid
  stageName : String
  tonightKobo : ℤ
  thisWeekKobo : ℤ
  totalKobo : ℤ
deriving DecidableEq

/-- The payment is at the venue: the last join. -/
def paidAt (venueId : Uuid) (db : Db) (transactionId : Uuid) : Bool :=
  db.payments.rows.any fun p => p.id == transactionId && p.venueId == venueId

/-- The entries the entertainer is joined with, and where there are none, none. A row with an entry of
another venue's payment is left out. -/
def entriesOf (venueId : Uuid) (db : Db) (entertainer : Entertainer) : List (Option LedgerEntry) :=
  let entries : List LedgerEntry :=
    match db.ledgerAccounts.find (isAccount .ENTERTAINER_PAYABLE (some entertainer.id)) with
    | none => []
    | some account => db.ledgerEntries.filter fun e => e.accountId == account.id && e.direction == .CREDIT
  if entries.isEmpty then [none]
  else (entries.filter fun e => paidAt venueId db e.transactionId).map some

/-- What an entertainer linked to the venue is joined with. -/
def rowsOf (venueId : Uuid) (db : Db) (ve : VenueEntertainer) : List (Entertainer × Option LedgerEntry) :=
  match db.entertainers.find (·.id == ve.entertainerId) with
  | none => []
  | some entertainer =>
    if entertainer.isActive then (entriesOf venueId db entertainer).map (entertainer, ·) else []

/-- The rows of the joins, each joined by a unique key but for the entries. -/
def earningsRows (venueId : Uuid) (db : Db) : List (Entertainer × Option LedgerEntry) :=
  (db.venueEntertainers.rows.filter (·.venueId == venueId)).flatMap (rowsOf venueId db)

/-- What the rows are grouped by. -/
def groupKey (row : Entertainer × Option LedgerEntry) : Uuid × String := (row.1.id, row.1.stageName)

/-- The sum of a group, from a time on if there is one. -/
def groupSum (key : Uuid × String) (start : Option Time) (rows : List (Entertainer × Option LedgerEntry)) : ℤ :=
  sumOf (fun row => groupKey row == key && row.2.any fun e => start.all (· ≤ e.createdAt))
    (fun row => row.2.elim 0 (·.amountKobo)) rows

/-- `nameLe` is how the database collates names. -/
def venueEntertainerEarnings (nameLe : String → String → Bool) (venueId : Uuid) (now : Time) (db : Db) :
    List EntertainerEarningsRow :=
  let rows := earningsRows venueId db
  let groups := (rows.map groupKey).dedup.map fun key =>
    { entertainerId := key.1, stageName := key.2
      tonightKobo := groupSum key (some (tonight now).start) rows
      thisWeekKobo := groupSum key (some (thisWeek now).start) rows
      totalKobo := groupSum key none rows : EntertainerEarningsRow }
  groups.insertionSort fun a b =>
    b.totalKobo < a.totalKobo ∨ a.totalKobo = b.totalKobo ∧ nameLe a.stageName b.stageName = true

/-! ### The figures of the ledger -/

/-- The entertainer's payable account. -/
def payableTo (entertainerId : Uuid) : Kind :=
  fun type owner => type == .ENTERTAINER_PAYABLE && owner == some entertainerId

/-- Credits count that are for payments that meet a condition. -/
def credits (cond : PaymentTransaction → Bool) (payments : Table PaymentTransaction) : Weight :=
  fun transactionId d x =>
    if d = .CREDIT ∧ (payments.rows.any fun p => p.id == transactionId && cond p) = true then x else 0

/-- What was credited to the entertainer for payments that meet a condition. -/
def credited (entertainerId : Uuid) (cond : PaymentTransaction → Bool) (db : Db) : ℤ :=
  figure (payableTo entertainerId) (credits cond db.payments) db

variable {db : Db} {entertainerId : Uuid} {cond : PaymentTransaction → Bool} {w : Weight}

lemma isOn_account {account : LedgerAccount} {type : LedgerAccountType} {owner : Option Uuid}
    (hfind : db.ledgerAccounts.find (isAccount type owner) = some account) (e : LedgerEntry) :
    isOn db.ledgerAccounts (isAccount type owner) e = (e.accountId == account.id) := by
  obtain ⟨hmem, hcond⟩ := (Table.find_eq_some names_account).mp hfind
  rw [Bool.eq_iff_iff, isOn, List.any_eq_true, beq_iff_eq]
  constructor
  · rintro ⟨a, ha, h⟩
    simp only [Bool.and_eq_true, beq_iff_eq] at h
    rw [← h.1, Table.Names.eq names_account hmem hcond ha h.2]
  · exact fun h => ⟨account, hmem, by simp [h, hcond]⟩

lemma isOn_none {type : LedgerAccountType} {owner : Option Uuid}
    (hfind : db.ledgerAccounts.find (isAccount type owner) = none) (e : LedgerEntry) :
    isOn db.ledgerAccounts (isAccount type owner) e = false :=
  List.any_eq_false.mpr fun a ha => by simp [Table.find_eq_none.mp hfind a ha]

/-- A figure of one account. -/
lemma figure_account {account : LedgerAccount}
    (hfind : db.ledgerAccounts.find (isAccount .ENTERTAINER_PAYABLE (some entertainerId)) = some account) :
    figure (payableTo entertainerId) w db = sumOf (·.accountId == account.id) w.entry db.ledgerEntries :=
  sumOf_congr fun e _ => by rw [← isOn_account hfind e]; rfl

lemma figure_no_account
    (hfind : db.ledgerAccounts.find (isAccount .ENTERTAINER_PAYABLE (some entertainerId)) = none) :
    figure (payableTo entertainerId) w db = 0 :=
  sumOf_eq_zero fun e _ => isOn_none hfind e

/-- **The total an entertainer is shown**: what was credited, for whatever payment. -/
theorem overview_total (hrefs : ∀ e ∈ db.ledgerEntries, ∃ p ∈ db.payments.rows, p.id = e.transactionId)
    {now : Time} {o : EntertainerOverview} (h : entertainerOverview entertainerId now db = .ok o) :
    o.totalKobo = credited entertainerId (fun _ => true) db := by
  unfold entertainerOverview at h
  rcases hfound : db.entertainers.find (·.id == entertainerId) with _ | entertainer <;>
    simp only [hfound, reduceCtorEq] at h
  rcases hfind : db.ledgerAccounts.find (isAccount .ENTERTAINER_PAYABLE (some entertainerId)) with _ | account <;>
    simp only [hfind, Except.ok.injEq] at h
  · rw [← h, credited, figure_no_account hfind]
  · rw [← h, credited, figure_account hfind, creditsIn]
    refine sumOf_congr fun e he => ?_
    have hany : (db.payments.rows.any fun p => p.id == e.transactionId && true) = true := by
      obtain ⟨p, hp, hid⟩ := hrefs e he
      exact List.any_eq_true.mpr ⟨p, hp, by simp [hid]⟩
    have hweight : (credits (fun _ => true) db.payments).entry e =
        if e.direction = .CREDIT then e.amountKobo else 0 := by
      simp only [Weight.entry, credits, hany, and_true]
    rw [hweight]
    by_cases hacc : e.accountId = account.id <;> by_cases hd : e.direction = .CREDIT <;> simp [hacc, hd]

/-! ### A venue's rows -/

variable {venueId : Uuid}

/-- The entries an entertainer is joined with sum up to what was credited for the venue's payments. -/
lemma entriesOf_sum (entertainer : Entertainer) :
    ((entriesOf venueId db entertainer).map fun e => e.elim 0 (·.amountKobo)).sum =
      credited entertainer.id (·.venueId == venueId) db := by
  rcases hfind : db.ledgerAccounts.find (isAccount .ENTERTAINER_PAYABLE (some entertainer.id)) with _ | account
  · rw [credited, figure_no_account hfind, entriesOf, hfind]
    rfl
  have hfigure : credited entertainer.id (·.venueId == venueId) db =
      (((db.ledgerEntries.filter fun e => e.accountId == account.id && e.direction == .CREDIT).filter
        fun e => paidAt venueId db e.transactionId).map (·.amountKobo)).sum := by
    rw [credited, figure_account hfind, List.filter_filter, sumOf_filter]
    refine sumOf_congr fun e _ => ?_
    by_cases hacc : e.accountId = account.id <;> by_cases hd : e.direction = .CREDIT <;>
      simp [Weight.entry, credits, paidAt, hacc, hd]
  rw [hfigure, entriesOf, hfind]
  simp only
  split
  · rename_i hempty
    rw [List.isEmpty_iff.mp hempty]
    rfl
  · rw [List.map_map]
    rfl

lemma mem_rowsOf {ve : VenueEntertainer} {row : Entertainer × Option LedgerEntry}
    (h : row ∈ rowsOf venueId db ve) : row.1.id = ve.entertainerId ∧
      rowsOf venueId db ve = (entriesOf venueId db row.1).map (row.1, ·) := by
  unfold rowsOf at h ⊢
  rcases hfind : db.entertainers.find (·.id == ve.entertainerId) with _ | entertainer <;>
    simp only [hfind, List.not_mem_nil] at h
  split at h
  · obtain ⟨e, -, rfl⟩ := List.mem_map.mp h
    exact ⟨by simpa using Table.of_find hfind, if_pos ‹_›⟩
  · cases h

/-- A group has the rows of one entertainer. -/
lemma groupSum_rows {row : Entertainer × Option LedgerEntry} (start : Option Time)
    (h : row ∈ earningsRows venueId db) :
    groupSum (groupKey row) start (earningsRows venueId db) =
      sumOf (·.any fun e => start.all (· ≤ e.createdAt)) (·.elim 0 (·.amountKobo)) (entriesOf venueId db row.1) := by
  rw [earningsRows, List.mem_flatMap] at h
  obtain ⟨ve, hve, hrow⟩ := h
  obtain ⟨hmem, hvenue⟩ := List.mem_filter.mp hve
  obtain ⟨hid, hrows⟩ := mem_rowsOf hrow
  -- the pair of venue and entertainer is unique
  have hone : (db.venueEntertainers.rows.filter (·.venueId == venueId)).filter
      (·.entertainerId == row.1.id) = [ve] := by
    have hnames : Table.Names (fun v : VenueEntertainer => v.entertainerId == row.1.id && v.venueId == venueId)
        (.pair venueId row.1.id) := fun v hv => by
      simp only [Bool.and_eq_true, beq_iff_eq] at hv
      simp [Indexed.keys, hv]
    have hfind : db.venueEntertainers.find
        (fun v => v.entertainerId == row.1.id && v.venueId == venueId) = some ve :=
      (Table.find_eq_some hnames).mpr ⟨hmem, by simpa [hid] using hvenue⟩
    rw [List.filter_filter, Table.filter_of_names hnames, hfind]
    rfl
  have hothers : ∀ v, v.entertainerId ≠ row.1.id → sumOf (fun r => groupKey r == groupKey row &&
      r.2.any fun e => start.all (· ≤ e.createdAt)) (fun r => r.2.elim 0 (·.amountKobo))
      (rowsOf venueId db v) = 0 := by
    refine fun v hv => sumOf_eq_zero fun r hr => ?_
    have hkey : groupKey r ≠ groupKey row := fun hk =>
      hv ((mem_rowsOf hr).1.symm.trans (congrArg Prod.fst hk))
    simp [hkey]
  have hsplit : ∀ (f : VenueEntertainer → ℤ) (vs : List VenueEntertainer),
      (∀ v, v.entertainerId ≠ row.1.id → f v = 0) →
      (vs.map f).sum = ((vs.filter (·.entertainerId == row.1.id)).map f).sum := by
    intro f vs hf
    rw [sumOf_filter, sumOf]
    refine congrArg List.sum (List.map_congr_left fun v _ => ?_)
    by_cases hv : v.entertainerId = row.1.id
    · rw [if_pos (by simpa using hv)]
    · rw [if_neg (by simpa using hv), hf v hv]
  rw [groupSum, earningsRows, sumOf_flatMap, hsplit _ _ hothers, hone, List.map_singleton, List.sum_singleton,
    hrows, sumOf_map]
  refine sumOf_congr fun e _ => ?_
  simp only [Function.comp_apply, groupKey, beq_self_eq_true, Bool.true_and]

lemma groupSum_eq {row : Entertainer × Option LedgerEntry} (h : row ∈ earningsRows venueId db) :
    groupSum (groupKey row) none (earningsRows venueId db) = credited row.1.id (·.venueId == venueId) db := by
  rw [groupSum_rows none h, ← entriesOf_sum, sumOf]
  refine congrArg List.sum (List.map_congr_left fun e _ => ?_)
  rcases e with _ | e <;> simp

/-- **The total a venue is shown of an entertainer**: what was credited for the venue's payments. -/
theorem row_total {nameLe : String → String → Bool} {now : Time} {r : EntertainerEarningsRow}
    (h : r ∈ venueEntertainerEarnings nameLe venueId now db) :
    r.totalKobo = credited r.entertainerId (·.venueId == venueId) db := by
  rw [venueEntertainerEarnings, List.mem_insertionSort, List.mem_map] at h
  obtain ⟨key, hkey, rfl⟩ := h
  obtain ⟨row, hrow, rfl⟩ := List.mem_map.mp (List.mem_dedup.mp hkey)
  exact groupSum_eq hrow

end Splitcore.Dashboard
