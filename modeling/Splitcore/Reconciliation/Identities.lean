import Splitcore.Money.Figures

/-!
Reconciliation: what the ledger says is held at the processor, beside what the processor says.

The figures of a report are tied together, whatever was settled, delivered, returned and retried before
it, and in which order.
-/

namespace Splitcore.Reconciliation

open Relational Interleaving Ledger Bookkeeping Money

/-! ### The service -/

structure ReconciliationReport where
  checkedAt : Time
  trialBalanced : Bool
  totalDebitsKobo : ℤ
  totalCreditsKobo : ℤ
  ledgerClearingKobo : ℤ
  inFlightPayoutsKobo : ℤ
  expectedProviderBalanceKobo : ℤ
  providerBalanceKobo : ℤ
  driftKobo : ℤ
  entertainerPayableKobo : ℤ
  venuePayableKobo : ℤ
  platformRevenueKobo : ℤ

/-- `COALESCE(SUM(CASE WHEN direction = 'CREDIT' THEN amount_kobo ELSE -amount_kobo END), 0)`. -/
def sumByType (type : LedgerAccountType) (db : Db) : ℤ :=
  ((joined (·.type == type) db).map fun e => if e.direction = .CREDIT then e.amountKobo else -e.amountKobo).sum

/-- `ReconciliationService.run`, reading one snapshot. -/
def report (checkedAt : Time) (providerBalanceKobo : ℤ) (creditsFirst : LedgerAccountType → Bool)
    (db : Db) : ReconciliationReport :=
  let trial := getTrialBalance db
  let balance := fun type => getBalance (creditsFirst type) type none db
  let ledgerClearingKobo := balance .PROCESSOR_CLEARING
  let inFlightPayoutsKobo := sumOf (·.status == .PROCESSING) (·.amountKobo) db.payouts.rows
  let expectedProviderBalanceKobo := ledgerClearingKobo - inFlightPayoutsKobo
  { checkedAt, trialBalanced := trial.totalDebitsKobo == trial.totalCreditsKobo
    totalDebitsKobo := trial.totalDebitsKobo, totalCreditsKobo := trial.totalCreditsKobo
    ledgerClearingKobo, inFlightPayoutsKobo, expectedProviderBalanceKobo, providerBalanceKobo
    driftKobo := providerBalanceKobo - expectedProviderBalanceKobo
    entertainerPayableKobo := sumByType .ENTERTAINER_PAYABLE db
    venuePayableKobo := sumByType .VENUE_PAYABLE db
    platformRevenueKobo := balance .PLATFORM_REVENUE }

/-! ### The figures of the report -/

def signed : Weight := fun _ d x => if d = .DEBIT then x else -x

/-- The system account of the type. -/
def system (type : LedgerAccountType) : Kind := fun t owner => t == type && owner == none

/-- Every account of the type. -/
def ofType (type : LedgerAccountType) : Kind := fun t _ => t == type

def every : Kind := fun _ _ => true

/-- The individual entries on the accounts that meet a condition. -/
def entriesOn (cond : LedgerAccount → Bool) (db : Db) : List (LedgerDirection × ℤ) :=
  (db.ledgerEntries.filter (isOn db.ledgerAccounts cond)).map toBalance

variable {db db' : Db} {type : LedgerAccountType}

lemma figure_entries (q : Kind) : ((entriesOn q.has db).map fun e => if e.1 = .DEBIT then e.2 else -e.2).sum =
    figure q signed db := by
  rw [entriesOn, List.map_map, figure, ← sumOf_filter]
  rfl

lemma balanceOf_entriesOn (q : Kind) :
    balanceOf type (entriesOn q.has db) = debitSign type * figure q signed db := by
  rw [balanceOf_eq, figure_entries]

lemma sumByType_eq (hpay : isPayable type = true) :
    sumByType type db = balanceOf type (entriesOn (·.type == type) db) := by
  have hsign : debitSign type = -1 := if_neg fun h => by rw [h] at hpay; cases hpay
  rw [balanceOf_eq, hsign, sumByType, joined_eq, entriesOn]
  generalize db.ledgerEntries.filter _ = es
  induction es with
  | nil => rfl
  | cons e es ih =>
    simp only [List.map_cons, List.sum_cons, ih]
    rcases hd : e.direction <;> simp [toBalance, hd] <;> ring

lemma trial_eq (db : Db) : (getTrialBalance db).totalDebitsKobo - (getTrialBalance db).totalCreditsKobo =
    (db.ledgerEntries.map (signed.entry ·)).sum := by
  have h := sum_toBalance db.ledgerEntries
  rw [List.map_map] at h
  exact h.symm

/-! ### What a posting adds -/

section Lines

variable {specs : List LedgerEntrySpec} {id : Uuid}

/-- The lines of a posting are on the four kinds of accounts, and the system has one of each of its. -/
def Classified (spec : LedgerEntrySpec) : Prop :=
  spec.accountType = .PROCESSOR_CLEARING ∨ spec.accountType = .PLATFORM_REVENUE → spec.ownerId = none

lemma lines_split (h : ∀ spec ∈ specs, Classified spec) : lines every signed id specs =
    lines (system .PROCESSOR_CLEARING) signed id specs + lines (ofType .ENTERTAINER_PAYABLE) signed id specs +
      lines (ofType .VENUE_PAYABLE) signed id specs + lines (system .PLATFORM_REVENUE) signed id specs := by
  induction specs with
  | nil => rfl
  | cons spec specs ih =>
    obtain ⟨hspec, hspecs⟩ := List.forall_mem_cons.mp h
    have ih := ih hspecs
    simp only [lines, sumOf_cons] at ih ⊢
    rw [ih]
    unfold Classified at hspec
    rcases htype : spec.accountType <;> simp [every, system, ofType, htype] at hspec ⊢
    · ring
    · ring
    · rw [if_pos hspec]; ring
    · rw [if_pos hspec]; ring

lemma lines_every : lines every signed id specs = totalOf .DEBIT specs - totalOf .CREDIT specs := by
  induction specs with
  | nil => rfl
  | cons spec specs ih =>
    simp only [lines, totalOf, List.map_cons, List.sum_cons, sumOf_cons] at ih ⊢
    rw [ih]
    rcases hd : spec.direction <;> simp [every, Weight.spec, signed, hd] <;> ring

lemma paymentEntries_classified {payment : PaymentForPosting} {split : SplitForPosting} :
    ∀ spec ∈ paymentEntries payment split, Classified spec := by
  intro spec hspec htype
  simp only [paymentEntries, List.mem_cons, List.mem_append, mem_line] at hspec
  obtain rfl | (⟨-, rfl⟩ | ⟨-, rfl⟩) | ⟨-, rfl⟩ := hspec
  · rfl
  · rcases htype with h | h <;> cases h
  · rcases htype with h | h <;> cases h
  · rfl

/-- The one line of a settlement on the clearing account is its debit. -/
lemma paymentEntries_clearing {payment : PaymentForPosting} {split : SplitForPosting} :
    lines (system .PROCESSOR_CLEARING) signed id (paymentEntries payment split) = payment.grossAmountKobo := by
  have hline : ∀ {t : LedgerAccountType} {owner : Option Uuid} {x : ℤ}, t ≠ .PROCESSOR_CLEARING →
      lines (system .PROCESSOR_CLEARING) signed id (line t owner x) = 0 := by
    intro t owner x ht
    refine sumOf_eq_zero fun spec hspec => ?_
    obtain ⟨-, rfl⟩ := mem_line.mp hspec
    simp [system, ht]
  have happend : ∀ as bs, lines (system .PROCESSOR_CLEARING) signed id (as ++ bs) =
      lines (system .PROCESSOR_CLEARING) signed id as + lines (system .PROCESSOR_CLEARING) signed id bs :=
    fun as bs => sumOf_append
  rw [paymentEntries, lines, sumOf_cons]
  change _ + lines (system .PROCESSOR_CLEARING) signed id _ = _
  rw [happend, happend, hline (by decide), hline (by decide), hline (by decide)]
  simp [system, Weight.spec, signed]

lemma movedEntries_eq (back : Bool) (payout : PayoutForPosting) : movedEntries back payout =
    [⟨payout.accountType, payout.ownerId, if back then .CREDIT else .DEBIT, payout.amountKobo⟩,
      ⟨.PROCESSOR_CLEARING, none, if back then .DEBIT else .CREDIT, payout.amountKobo⟩] := by
  cases back <;> rfl

lemma movedEntries_classified {back : Bool} {payout : PayoutForPosting}
    (hpay : isPayable payout.accountType = true) : ∀ spec ∈ movedEntries back payout, Classified spec := by
  intro spec hspec htype
  rw [movedEntries_eq, List.mem_cons, List.mem_singleton] at hspec
  rcases hspec with rfl | rfl
  · rcases htype with h | h <;> rw [show payout.accountType = _ from h] at hpay <;> cases hpay
  · rfl

lemma movedEntries_every {back : Bool} {payout : PayoutForPosting} :
    lines every signed id (movedEntries back payout) = 0 := by
  rw [movedEntries_eq]
  cases back <;> simp [lines, every, Weight.spec, signed]

lemma movedEntries_clearing {back : Bool} {payout : PayoutForPosting}
    (hpay : isPayable payout.accountType = true) :
    lines (system .PROCESSOR_CLEARING) signed id (movedEntries back payout) =
      if back then payout.amountKobo else -payout.amountKobo := by
  have htype : payout.accountType ≠ .PROCESSOR_CLEARING := fun h => by rw [h] at hpay; cases hpay
  rw [movedEntries_eq]
  cases back <;> simp [lines, system, Weight.spec, signed, htype]

end Lines

/-! ### What every change keeps -/

def gross (p : PaymentTransaction) : ℤ := p.grossAmountKobo

lemma gross_steadfast : Steadfast gross := fun p p' h => by
  have hsame := congrArg PaymentTransaction.grossAmountKobo h
  exact hsame

/-- The figures are tied together. -/
structure Tied (db : Db) : Prop where
  consistent : Consistent db
  balanced : figure every signed db = 0
  split : figure every signed db =
    figure (system .PROCESSOR_CLEARING) signed db + figure (ofType .ENTERTAINER_PAYABLE) signed db +
      figure (ofType .VENUE_PAYABLE) signed db + figure (system .PLATFORM_REVENUE) signed db
  held : figure (system .PROCESSOR_CLEARING) signed db = successful gross db - delivered db

/-- Nothing was posted, and what is settled and delivered is as it was. -/
lemma tied_same (h : Tied db) (hc : Consistent db')
    (hpre : db.ledgerAccounts.rows <+: db'.ledgerAccounts.rows) (hpost : db'.postings = db.postings)
    (hin : successful gross db' = successful gross db) (hout : delivered db' = delivered db) : Tied db' := by
  have hsame : ∀ q, figure q signed db' = figure q signed db := fun q =>
    figure_same h.consistent hpre hpost fun _ _ _ _ => rfl
  exact ⟨hc, (hsame _).trans h.balanced, by simp only [hsame]; exact h.split,
    by rw [hsame, hin, hout]; exact h.held⟩

/-- A posting whose lines balance, and whose line on the clearing account is what came in or went out. -/
lemma tied_posted {specs : List LedgerEntrySpec} {po : Posting} {id : Uuid} (h : Tied db)
    (hc : Consistent db') (hpre : db.ledgerAccounts.rows <+: db'.ledgerAccounts.rows)
    (hpost : db'.postings = db.postings ++ [po]) (hw : List.Forall₂ (Writes db' id) specs po.entries)
    (hclassified : ∀ spec ∈ specs, Classified spec) (hevery : lines every signed id specs = 0)
    (hmoney : successful gross db' - delivered db' = successful gross db - delivered db +
      lines (system .PROCESSOR_CLEARING) signed id specs) : Tied db' := by
  have hadds : ∀ q, figure q signed db' = figure q signed db + lines q signed id specs := fun q =>
    figure_posted h.consistent hpre hpost hw fun _ _ _ _ => rfl
  refine ⟨hc, ?_, ?_, ?_⟩
  · rw [hadds, h.balanced, hevery, add_zero]
  · simp only [hadds]
    rw [h.split, lines_split hclassified]
    ring
  · rw [hadds, h.held, hmoney]

/-- **Every change keeps the figures tied.** -/
theorem change_tied (hchange : Change db db') (h : Tied db) : Tied db' := by
  have hc := change_consistent hchange h.consistent
  have hpre := hchange.keeps.ledgerAccounts
  rcases quiet_or_posts hchange with ⟨hpost, hin, hout⟩ | ⟨⟨s⟩⟩ | ⟨back, ⟨m⟩⟩
  · exact tied_same h hc hpre hpost (hin gross) hout
  · obtain ⟨hbalanced, hspecs⟩ := computePaymentEntries_ok s.computed
    refine tied_posted h hc hpre (congrArg Db.postings s.after) s.written ?_ ?_ ?_
    · rw [hspecs]; exact paymentEntries_classified
    · rw [lines_every, (assertBalanced_ok.mp hbalanced).2.2, sub_self]
    · rw [successful_settled gross_steadfast s, delivered_settled s, hspecs, paymentEntries_clearing]
      show _ + s.payment.grossAmountKobo - _ = _ + s.payment.grossAmountKobo
      ring
  · have hpayable : isPayable (payoutForPosting m.payout m.account).accountType = true := m.payable
    refine tied_posted h hc hpre (congrArg Db.postings m.after) m.written
      (movedEntries_classified hpayable) movedEntries_every ?_
    rw [successful_moved m, delivered_moved m, movedEntries_clearing hpayable]
    show _ = _ + if back then m.payout.amountKobo else -m.payout.amountKobo
    cases back <;> simp <;> ring

/-! ### Every state reached -/

/-- The rest of the system, which adds payments that are still to be settled. -/
def arriving (v db : Db) : Option Db :=
  if ∀ payment ∈ v.payments.rows, payment ∈ db.payments.rows ∨ payment.status ≠ .SUCCESS then
    elsewhere v db
  else none

def arrivals : Outside App Operation Unit Db where
  entry := Operation.program
  start _ _ x := some x
  move v db x := (arriving v db).map (·, x)

lemma arrivals_move {v : Db} {x x' : Unit} (h : arrivals.move v db x = some (db', x')) :
    arriving v db = some db' := by
  obtain ⟨_, harriving, heq⟩ := Option.map_eq_some_iff.mp h
  cases heq
  exact harriving

lemma arriving_elsewhere {v : Db} (h : arriving v db = some db') : elsewhere v db = some db' ∧
    ∀ payment ∈ v.payments.rows, payment ∈ db.payments.rows ∨ payment.status ≠ .SUCCESS := by
  unfold arriving at h
  split at h
  · exact ⟨h, ‹_›⟩
  · cases h

lemma elsewhere_payments {v : Db} (h : elsewhere v db = some db') :
    db'.payments = v.payments ∧ db.payments.rows <+: v.payments.rows := by
  unfold elsewhere at h
  split at h
  · rename_i hpre
    cases h
    exact ⟨rfl, hpre.1⟩
  · cases h

/-- A payment that arrives is not `SUCCESS`, so nothing more is settled. -/
lemma successful_arriving {v : Db} {f : PaymentTransaction → ℤ} (h : arriving v db = some db') :
    successful f db' = successful f db := by
  obtain ⟨helse, hnew⟩ := arriving_elsewhere h
  obtain ⟨hrows, new, hpre⟩ := elsewhere_payments helse
  rw [successful, hrows, ← hpre, sumOf_append, successful, add_eq_left]
  refine sumOf_eq_zero fun payment hp => ?_
  have hfresh : payment ∉ db.payments.rows := fun hold => by
    have hnodup := v.payments.nodup_rows
    rw [← hpre] at hnodup
    exact (List.nodup_append.mp hnodup).2.2 payment hold payment hp rfl
  have hopen := (hnew payment (hpre ▸ List.mem_append_right _ hp)).resolve_left hfresh
  simpa using hopen

lemma arriving_tied {v : Db} (h : arriving v db = some db') (ht : Tied db) : Tied db' := by
  obtain ⟨hkeeps, hacc, hpost, hpay⟩ := elsewhere_keeps (arriving_elsewhere h).1
  refine tied_same ht ?_ hkeeps.ledgerAccounts hpost (successful_arriving h) (by rw [delivered, hpay, delivered])
  exact ⟨by rw [hacc, hpost]; exact ht.consistent.entries, by rw [hacc, hpay]; exact ht.consistent.payouts⟩

lemma tied_empty (hpost : db.postings = []) (hpay : db.payouts.rows = [])
    (hopen : ∀ payment ∈ db.payments.rows, payment.status ≠ .SUCCESS) : Tied db := by
  have hnone : ∀ q, figure q signed db = 0 := fun q => by rw [figure, Db.ledgerEntries, hpost]; rfl
  refine ⟨⟨by simp [hpost], by simp [hpay]⟩, hnone _, by simp only [hnone]; rfl, ?_⟩
  rw [hnone, delivered, hpay, successful, sumOf_eq_zero fun p hp => by simpa using hopen p hp]
  rfl

/-- The identities of a report, and of its figures with the entries. -/
structure Identities (db : Db) (r : ReconciliationReport) : Prop where
  trial : r.totalDebitsKobo = r.totalCreditsKobo
  split : r.ledgerClearingKobo = r.entertainerPayableKobo + r.venuePayableKobo + r.platformRevenueKobo
  held : r.ledgerClearingKobo = successful (·.grossAmountKobo) db - delivered db
  clearing : r.ledgerClearingKobo =
    balanceOf .PROCESSOR_CLEARING (entriesOn (isAccount .PROCESSOR_CLEARING none) db)
  platform : r.platformRevenueKobo =
    balanceOf .PLATFORM_REVENUE (entriesOn (isAccount .PLATFORM_REVENUE none) db)
  entertainers : r.entertainerPayableKobo =
    balanceOf .ENTERTAINER_PAYABLE (entriesOn (·.type == .ENTERTAINER_PAYABLE) db)
  venues : r.venuePayableKobo = balanceOf .VENUE_PAYABLE (entriesOn (·.type == .VENUE_PAYABLE) db)
  debits : r.totalDebitsKobo =
    balanceOf .PROCESSOR_CLEARING ((entriesOn (fun _ => true) db).filter (·.1 = .DEBIT))
  credits : ∀ type ≠ .PROCESSOR_CLEARING, r.totalCreditsKobo =
    balanceOf type ((entriesOn (fun _ => true) db).filter (·.1 = .CREDIT))

/-- Every entry is on an account. -/
lemma filter_every (hc : Consistent db) :
    db.ledgerEntries.filter (isOn db.ledgerAccounts fun _ => true) = db.ledgerEntries := by
  refine List.filter_eq_self.mpr fun e he => ?_
  obtain ⟨po, hpo, hepo⟩ := List.mem_flatMap.mp he
  obtain ⟨a, ha, hid⟩ := hc.entries po hpo e hepo
  exact isOn_of_mem ha hid _

lemma figure_every (hc : Consistent db) : figure every signed db = (db.ledgerEntries.map signed.entry).sum := by
  rw [figure, ← sumOf_filter]
  exact congrArg (fun es => (es.map signed.entry).sum) (filter_every hc)

/-- The entries of one direction, in the sense of an account's type. -/
lemma balanceOf_direction (d : LedgerDirection) (es : List LedgerEntry) :
    balanceOf type ((es.map toBalance).filter (·.1 = d)) =
      debitSign type * if d = .DEBIT then total d es else -total d es := by
  rw [balanceOf_eq]
  congr 1
  induction es with
  | nil => cases d <;> rfl
  | cons e es ih =>
    rw [List.map_cons, List.filter_cons, total, sumOf_cons]
    change _ = if d = .DEBIT then _ + total d es else -(_ + total d es)
    by_cases hd : (toBalance e).1 = d
    · have hdir : e.direction = d := hd
      rw [if_pos (decide_eq_true hd), List.map_cons, List.sum_cons, ih]
      cases d with
      | DEBIT => simp [toBalance, hdir]
      | CREDIT =>
        simp [toBalance, hdir]
        ring
    · have hdir : e.direction ≠ d := hd
      rw [if_neg (by simpa using hd), ih]
      simp [hdir]

lemma Tied.identities (h : Tied db) (checkedAt : Time) (providerBalanceKobo : ℤ)
    (creditsFirst : LedgerAccountType → Bool) :
    Identities db (report checkedAt providerBalanceKobo creditsFirst db) := by
  have hgetBalance : ∀ type, getBalance (creditsFirst type) type none db =
      balanceOf type (entriesOn (isAccount type none) db) := fun type => getBalance_eq _ _
  have hclearing : balanceOf .PROCESSOR_CLEARING (entriesOn (isAccount .PROCESSOR_CLEARING none) db) =
      figure (system .PROCESSOR_CLEARING) signed db :=
    (balanceOf_entriesOn (system .PROCESSOR_CLEARING)).trans (one_mul _)
  have hplatform : balanceOf .PLATFORM_REVENUE (entriesOn (isAccount .PLATFORM_REVENUE none) db) =
      -figure (system .PLATFORM_REVENUE) signed db :=
    (balanceOf_entriesOn (system .PLATFORM_REVENUE)).trans (neg_one_mul _)
  have hpayable : ∀ type, isPayable type = true → sumByType type db = -figure (ofType type) signed db := by
    intro type hpay
    have hsign : debitSign type = -1 := if_neg fun hclear => by rw [hclear] at hpay; cases hpay
    exact (sumByType_eq hpay).trans
      ((balanceOf_entriesOn (ofType type)).trans (by rw [hsign, neg_one_mul]))
  have htrial := (trial_eq db).trans (figure_every h.consistent).symm
  constructor
  case trial => exact sub_eq_zero.mp (htrial.trans h.balanced)
  case split =>
    change getBalance _ _ none db = sumByType _ db + sumByType _ db + getBalance _ _ none db
    rw [hgetBalance, hgetBalance, hclearing, hplatform, hpayable _ rfl, hpayable _ rfl]
    have hzero := h.split.symm.trans h.balanced
    linarith
  case held => exact ((hgetBalance _).trans hclearing).trans h.held
  case clearing => exact hgetBalance _
  case platform => exact hgetBalance _
  case entertainers => exact sumByType_eq rfl
  case venues => exact sumByType_eq rfl
  case debits =>
    rw [entriesOn, filter_every h.consistent, balanceOf_direction]
    exact (one_mul _).symm
  case credits =>
    intro type htype
    have hsign : debitSign type = -1 := if_neg htype
    rw [entriesOn, filter_every h.consistent, balanceOf_direction, hsign]
    exact ((neg_one_mul _).trans (neg_neg _)).symm

/-- **The reconciliation identities hold in every reachable state**, whatever was settled, delivered,
returned and retried before it. -/
theorem identities_hold {p₀ p : Pool App Operation Unit} (hruns : p₀.runs = [])
    (hpost : p₀.store.postings = []) (hpay : p₀.store.payouts.rows = [])
    (hopen : ∀ payment ∈ p₀.store.payments.rows, payment.status ≠ .SUCCESS)
    (h : Reach arrivals anyEvent p₀ p) (checkedAt : Time) (providerBalanceKobo : ℤ)
    (creditsFirst : LedgerAccountType → Bool) :
    Identities p.store (report checkedAt providerBalanceKobo creditsFirst p.store) := by
  have hentry : ∀ o db, Obeys (books (fun _ _ => True) Operation) (fun _ _ => True)
    (arrivals.entry o) db := fun o _ => program_sound o
  have hchange : ∀ db db', Change db db' → Tied db → Tied db' := fun _ _ => change_tied
  have hstart : InOrder p₀ := steady_start hruns
  have htied : Tied p.store := by
    refine (steady_keeps (G := Keeps) Keeps.refl (fun _ _ _ => Keeps.trans) hentry
      (fun v db x db' x' hm => (elsewhere_keeps (arriving_elsewhere (arrivals_move hm)).1).1) (fun p ev _ => ?_)
      (fun db db' _ => hchange db db') (fun v db x db' x' hm => arriving_tied (arrivals_move hm)) hstart h
      (tied_empty hpost hpay hopen)).2
    cases ev <;> simp [Meets]
  exact htied.identities checkedAt providerBalanceKobo creditsFirst

/-- A payment settled, one of its payouts delivered, and returned. -/
def settledPaidReturned : List (Event App Operation Db) :=
  settledAndPaid ++
    .start (.handleTransferEvent (transferReference (uid 3005) 1) .reversed none) :: execs 2 [11, 12] ++
    asks 2 agreeable ++ [.finish 2]

theorem identities_hold_sample : ∃ p, run arrivals ⟨sampleDb, (), []⟩ settledPaidReturned = some p ∧
    p.store.postings.length = 3 ∧ Identities p.store (report 13 10000 (fun _ => true) p.store) := by
  obtain ⟨p, hp, hthree⟩ := (Option.any_eq_true _ _).mp
    (by decide +kernel : (run arrivals ⟨sampleDb, (), []⟩ settledPaidReturned).any
      (fun p => p.store.postings.length == 3) = true)
  exact ⟨p, hp, by simpa using hthree,
    identities_hold rfl rfl rfl (by decide) (reach_of_run (along_any _) hp) _ _ _⟩

end Splitcore.Reconciliation
