import Splitcore.Dashboard.Earnings
import Splitcore.Dashboard.Performers
import Splitcore.Money.Dated

/-!
Tonight's takings and tonight's shares. The takings are the payments created tonight, the shares what was
credited tonight; what is settled after midnight, or credited again, is in the one and not in the other.
-/

namespace Splitcore.Dashboard

open Relational Interleaving Ledger Bookkeeping Money Reconciliation

/-! ### Where a night's shares come from -/

/-- The payment is settled on the day it was created, in Lagos. -/
def settledThatDay (venueId : Uuid) : Site → Input → Db → Prop
  | .settleTransaction paymentId, w, db => ∀ payment ∈ db.payments.rows, payment.id = paymentId →
      payment.venueId = venueId → payment.entertainerId ≠ none → SETTLEABLE.contains payment.status = true →
      lagosDayStart w.now ≤ payment.createdAt
  | _, _, _ => True

/-- No reversal finds an entertainer's payout, for a payment at the venue, that is `SUCCESS`. -/
def creditsNoneAgain (venueId : Uuid) : Site → Db → Prop
  | .handleTransferEventReversed payoutId, db => ∀ payout ∈ db.payouts.rows, payout.id = payoutId →
      payout.status = .SUCCESS → ofVenue venueId db payout = true →
      ∀ account ∈ db.ledgerAccounts.rows, account.id = payout.ledgerAccountId →
        account.type ≠ .ENTERTAINER_PAYABLE
  | _, _ => True

/-- The condition on a statement; the last part is that the error path of a checkout finds its payment
open. -/
def withinTheDay (venueId : Uuid) (site : Site) (w : Input) (db : Db) : Prop :=
  settledThatDay venueId site w db ∧ creditsNoneAgain venueId site db ∧ errorPathOpen site db

/-- Wherever the allowed runs lead, tonight's shares are within tonight's takings, whenever it is read: at
any time no payment was created after. -/
def AlwaysWithin (config : PaymentsConfig) (venueId : Uuid)
    (ok : Pool App GuestOperation Unit → Event App GuestOperation Db → Prop)
    (p₀ : Pool App GuestOperation Unit) : Prop :=
  ∀ p, Reach (guests config) ok p₀ p → ∀ nameLe now o,
    (∀ payment ∈ p.store.payments.rows, payment.createdAt ≤ now) → venueOverview venueId now p.store = .ok o →
    ((venueEntertainerEarnings nameLe venueId now p.store).map (·.tonightKobo)).sum ≤ o.totalTipsKobo

variable {db db' : Db} {venueId : Uuid} {nameLe : String → String → Bool} {now : Time} {start : Time}

/-! ### Days -/

lemma dayStart_mono {s t : ℤ} (h : s ≤ t) : lagosDayStart s ≤ lagosDayStart t := by
  unfold Time
  simp only [lagosDayStart, LAGOS_UTC_OFFSET_MINUTES]
  omega

lemma dayStart_idem (t : ℤ) : lagosDayStart (lagosDayStart t) = lagosDayStart t := by
  unfold Time
  simp only [lagosDayStart, LAGOS_UTC_OFFSET_MINUTES]
  omega

/-- What is after the start of a day is of that day, or of a later one. -/
lemma dayStart_le {t : Time} (h : lagosDayStart now ≤ t) : lagosDayStart now ≤ lagosDayStart t :=
  calc lagosDayStart now = lagosDayStart (lagosDayStart now) := (dayStart_idem now).symm
    _ ≤ lagosDayStart t := dayStart_mono h

/-! ### What the ledger has of the venue -/

/-- The payment is at the venue, and was created from `start` on. -/
def createdFrom (venueId : Uuid) (start : Time) (p : PaymentTransaction) : Bool :=
  p.venueId == venueId && decide (start ≤ p.createdAt)

def takingsFrom (venueId : Uuid) (start : Time) (p : PaymentTransaction) : ℤ :=
  if createdFrom venueId start p then p.grossAmountKobo else 0

/-- The entry credits an entertainer. -/
def creditsShare (db : Db) (e : LedgerEntry) : Bool :=
  e.direction == .CREDIT && isOn db.ledgerAccounts (ofType .ENTERTAINER_PAYABLE).has e

/-- What holds throughout the allowed runs. -/
structure Nightly (venueId : Uuid) (db : Db) : Prop where
  consistent : Consistent db
  references : References db
  entries : ∀ po ∈ db.postings, ∀ e ∈ po.entries, ∃ p ∈ db.payments.rows, p.id = e.transactionId
  /-- A share is credited on the day the payment was created. -/
  thatDay : ∀ po ∈ db.postings, ∀ e ∈ po.entries, creditsShare db e = true → ∀ p ∈ db.payments.rows,
    p.id = e.transactionId → p.venueId = venueId → 0 ≤ e.amountKobo ∧ lagosDayStart e.createdAt ≤ p.createdAt
  within : ∀ start, figure (ofType .ENTERTAINER_PAYABLE) (credits (createdFrom venueId start) db.payments) db ≤
    successful (takingsFrom venueId start) db

lemma fixed_created (venueId : Uuid) (start : Time) : Fixed (createdFrom venueId start) := by
  intro p p' h
  have hvenue : p.venueId = p'.venueId := congrArg PaymentForPosting.venueId (of_quoted h).2.2
  have hcreated : (quoted p).createdAt = (quoted p').createdAt := congrArg _ h
  replace hcreated : p.createdAt = p'.createdAt := hcreated
  rw [createdFrom, createdFrom, hvenue, hcreated]

lemma steadfast_takings (venueId : Uuid) (start : Time) : Steadfast (takingsFrom venueId start) := by
  intro p p' h
  have hgross : p.grossAmountKobo = p'.grossAmountKobo :=
    congrArg PaymentForPosting.grossAmountKobo (of_quoted h).2.2
  rw [takingsFrom, takingsFrom, hgross, fixed_created venueId start p p' h]

/-! ### What a change posts -/

/-- A line on an entertainer's account is a credit, of a payment that has an entertainer. -/
lemma share_line {payment : PaymentForPosting} {split : SplitForPosting} {spec : LedgerEntrySpec}
    (hspec : spec ∈ paymentEntries payment split) (htype : spec.accountType = .ENTERTAINER_PAYABLE) :
    spec.direction = .CREDIT ∧ payment.entertainerId ≠ none ∧ 0 < spec.amountKobo := by
  simp only [paymentEntries, List.mem_cons, List.mem_append, mem_line] at hspec
  obtain rfl | (⟨hpos, rfl⟩ | ⟨-, rfl⟩) | ⟨-, rfl⟩ := hspec
  · cases htype
  · refine ⟨rfl, fun hnone => ?_, hpos⟩
    simp [entertainerShare, hnone] at hpos
  · cases htype
  · cases htype

/-- **The share of a payment is within the payment.** -/
theorem share_le {payment : PaymentForPosting} {split : SplitForPosting}
    (h : assertBalanced (paymentEntries payment split) = .ok ()) :
    entertainerAmount (paymentEntries payment split) ≤ payment.grossAmountKobo := by
  obtain ⟨-, hpostable, hbalance⟩ := assertBalanced_ok.mp h
  -- what is credited, to whomever, is what was debited: the payment
  have hdebit : totalOf .DEBIT (paymentEntries payment split) = payment.grossAmountKobo := by
    have hrest : totalOf .DEBIT (paymentEntries payment split).tail = 0 := by
      refine List.sum_eq_zero fun x hx => ?_
      obtain ⟨spec, hspec, rfl⟩ := List.mem_map.mp hx
      simp only [paymentEntries, List.tail_cons, List.mem_append, mem_line] at hspec
      rcases hspec with (⟨-, rfl⟩ | ⟨-, rfl⟩) | ⟨-, rfl⟩ <;> rfl
    calc totalOf .DEBIT (paymentEntries payment split)
        = payment.grossAmountKobo + totalOf .DEBIT (paymentEntries payment split).tail := rfl
      _ = payment.grossAmountKobo := by rw [hrest, add_zero]
  have hcredit : entertainerAmount (paymentEntries payment split) ≤
      sumOf (·.direction == .CREDIT) (·.amountKobo) (paymentEntries payment split) := by
    refine sumOf_le fun spec hspec => ?_
    have hpos := (hpostable spec hspec).2
    by_cases htype : spec.accountType = .ENTERTAINER_PAYABLE
    · simp [htype, (share_line hspec htype).1]
    · rw [if_neg (by simpa using htype)]
      split <;> omega
  have htotal : sumOf (·.direction == .CREDIT) (·.amountKobo) (paymentEntries payment split) =
      totalOf .CREDIT (paymentEntries payment split) := by
    simp only [sumOf, totalOf, beq_iff_eq]
  omega

variable {cond : PaymentTransaction → Bool} {po : Posting} {id : Uuid} {specs : List LedgerEntrySpec}
  {site : Site} {w : Input}

/-- A settlement credits its share, if its payment counts. -/
lemma lines_share {t : Table PaymentTransaction} {payment payment' : PaymentTransaction} {split : SplitForPosting}
    (hp : payment' ∈ t.rows) (hid : payment'.id = payment.id) (hsame : cond payment' = cond payment) :
    lines (ofType .ENTERTAINER_PAYABLE) (credits cond t) payment.id
        (paymentEntries (paymentForPosting payment) split) =
      if cond payment then entertainerAmount (paymentEntries (paymentForPosting payment) split) else 0 := by
  have hany : (t.rows.any fun q => q.id == payment.id && cond q) = cond payment := by
    rw [← hid, any_payment hp, hsame]
  have hline : lines (ofType .ENTERTAINER_PAYABLE) (credits cond t) payment.id
      (paymentEntries (paymentForPosting payment) split) =
      sumOf (·.accountType == .ENTERTAINER_PAYABLE) (fun spec => if cond payment then spec.amountKobo else 0)
        (paymentEntries (paymentForPosting payment) split) := by
    refine sumOf_congr fun spec hspec => ?_
    by_cases htype : spec.accountType = .ENTERTAINER_PAYABLE
    · simp [ofType, htype, Weight.spec, credits, (share_line hspec htype).1, hany]
    · simp [ofType, htype]
  rw [hline]
  split
  · rfl
  · simp [sumOf]

/-- A written entry credits a share exactly if its line does. -/
lemma creditsShare_written {spec : LedgerEntrySpec} {e : LedgerEntry} (h : Writes db id spec e) :
    creditsShare db e = (spec.direction == .CREDIT && spec.accountType == .ENTERTAINER_PAYABLE) := by
  obtain ⟨-, hdir, -, hmem⟩ := h
  rw [creditsShare, isOn_of_mem hmem rfl, hdir]
  rfl

/-- What was credited before stays as it was. -/
lemma thatDay_old (h : Nightly venueId db) (hk : Keeps db db') {e : LedgerEntry} (hpo : po ∈ db.postings)
    (he : e ∈ po.entries) (hshare : creditsShare db' e = true) {p : PaymentTransaction}
    (hp : p ∈ db'.payments.rows) (hid : p.id = e.transactionId) (hvenue : p.venueId = venueId) :
    0 ≤ e.amountKobo ∧ lagosDayStart e.createdAt ≤ p.createdAt := by
  obtain ⟨q, hq, hqid⟩ := h.entries po hpo e he
  obtain ⟨q', hq', hquoted⟩ := mem_map_of_prefix hk.payments hq
  obtain ⟨hid', -, hposting⟩ := of_quoted hquoted
  obtain rfl : q' = p := Table.eq_of_key (k := .id e.transactionId) hq' hp
    (by simp [Indexed.keys, hid'.trans hqid]) (by simp [Indexed.keys, hid])
  have hcreated : (quoted q').createdAt = (quoted q).createdAt := congrArg _ hquoted
  replace hcreated : q'.createdAt = q.createdAt := hcreated
  have hvenue' : q'.venueId = q.venueId := congrArg PaymentForPosting.venueId hposting
  rw [creditsShare, isOn_mono hk.ledgerAccounts (h.consistent.entries po hpo e he)] at hshare
  rw [hcreated]
  exact h.thatDay po hpo e he hshare q hq hqid (hvenue'.symm.trans hvenue)

lemma credits_same (h : Nightly venueId db) (hk : Keeps db db') (start : Time) :
    ∀ po ∈ db.postings, ∀ e ∈ po.entries, (credits (createdFrom venueId start) db'.payments).entry e =
      (credits (createdFrom venueId start) db.payments).entry e :=
  fun po hpo e he => credits_keeps (fixed_created venueId start) hk (h.entries po hpo e he)

/-- Nothing was posted or settled. -/
lemma nightly_same (h : Nightly venueId db) (hk : Keeps db db') (hc : Consistent db') (hr : References db')
    (hpost : db'.postings = db.postings) (hin : ∀ f, successful f db' = successful f db) :
    Nightly venueId db' := by
  refine ⟨hc, hr, fun po hpo e he => payment_keeps hk (h.entries po (hpost ▸ hpo) e he),
    fun po hpo e he hshare p hp hid hvenue => thatDay_old h hk (hpost ▸ hpo) he hshare hp hid hvenue,
    fun start => ?_⟩
  rw [hin]
  exact (figure_same h.consistent hk.ledgerAccounts hpost (credits_same h hk start)).trans_le (h.within start)

/-- A posting whose shares are of the day, and within what is settled with it. -/
lemma nightly_posted (h : Nightly venueId db) (hk : Keeps db db') (hc : Consistent db') (hr : References db')
    (hpost : db'.postings = db.postings ++ [po]) (hw : List.Forall₂ (Writes db' id) specs po.entries)
    (hid : ∃ p ∈ db.payments.rows, p.id = id)
    (hnew : ∀ spec ∈ specs, ∀ e ∈ po.entries, spec.direction = .CREDIT → spec.accountType = .ENTERTAINER_PAYABLE →
      e.amountKobo = spec.amountKobo → ∀ p ∈ db'.payments.rows, p.id = id → p.venueId = venueId →
      0 ≤ e.amountKobo ∧ lagosDayStart e.createdAt ≤ p.createdAt)
    (hin : ∀ start, successful (takingsFrom venueId start) db +
      lines (ofType .ENTERTAINER_PAYABLE) (credits (createdFrom venueId start) db'.payments) id specs ≤
      successful (takingsFrom venueId start) db') : Nightly venueId db' := by
  refine ⟨hc, hr, fun po' hpo e he => ?_, fun po' hpo e he hshare p hp hpid hvenue => ?_, fun start => ?_⟩
  · rw [hpost, List.mem_append, List.mem_singleton] at hpo
    rcases hpo with hpo | rfl
    · exact payment_keeps hk (h.entries po' hpo e he)
    · obtain ⟨spec, -, hwrites⟩ := exists_of_forall₂ hw he
      exact payment_keeps hk (hwrites.1 ▸ hid)
  · rw [hpost, List.mem_append, List.mem_singleton] at hpo
    rcases hpo with hpo | rfl
    · exact thatDay_old h hk hpo he hshare hp hpid hvenue
    · obtain ⟨spec, hspec, hwrites⟩ := exists_of_forall₂ hw he
      rw [creditsShare_written hwrites] at hshare
      simp only [Bool.and_eq_true, beq_iff_eq] at hshare
      exact hnew spec hspec e he hshare.1 hshare.2 hwrites.2.2.1 p hp (hpid.trans hwrites.1) hvenue
  · rw [figure_posted h.consistent hk.ledgerAccounts hpost hw (credits_same h hk start)]
    have hbefore := h.within start
    have hsettled := hin start
    omega

/-- **A settlement on its payment's day.** -/
lemma nightly_settled (h : Nightly venueId db) (s : Settled db db') (hdone : DatedTaking site w db db')
    (hD : settledThatDay venueId site w db) : Nightly venueId db' := by
  have hchange : Change db db' := .settled s
  have hk := hchange.keeps
  have hpost : db'.postings = db.postings ++ [⟨.settlement, s.payment.id, s.entries⟩] := congrArg Db.postings s.after
  obtain ⟨hdate, hsite⟩ := hdone.1 _ hpost
  obtain rfl := hsite rfl
  obtain ⟨hbalanced, hspecs⟩ := computePaymentEntries_ok s.computed
  obtain ⟨payment', hp', hquoted⟩ := mem_map_of_prefix hk.payments s.payment_mem
  have hid := (of_quoted hquoted).1
  refine nightly_posted h hk (change_consistent hchange h.consistent) (change_references hchange h.references)
    hpost s.written ⟨s.payment, s.payment_mem, rfl⟩ (fun spec hspec e he hdir htype hamount p hp hpid hvenue => ?_)
    fun start => ?_
  · obtain ⟨-, hentertainer, hpos⟩ := share_line (hspecs ▸ hspec) htype
    obtain rfl : payment' = p := Table.eq_of_key (k := .id s.payment.id) hp' hp
      (by simp [Indexed.keys, hid]) (by simp [Indexed.keys, hpid])
    have hcreated : (quoted payment').createdAt = (quoted s.payment).createdAt := congrArg _ hquoted
    replace hcreated : payment'.createdAt = s.payment.createdAt := hcreated
    have hvenue' : payment'.venueId = s.payment.venueId :=
      congrArg PaymentForPosting.venueId (of_quoted hquoted).2.2
    rw [hamount, hcreated, hdate e he]
    exact ⟨hpos.le, hD s.payment s.payment_mem rfl (hvenue'.symm.trans hvenue) hentertainer s.open_⟩
  · rw [successful_settled (steadfast_takings venueId start) s, hspecs,
      lines_share hp' hid (fixed_created venueId start _ _ hquoted), takingsFrom]
    have hle := share_le (hspecs ▸ hbalanced)
    simp only [paymentForPosting] at hle ⊢
    split <;> omega

/-- **A delivery, or a return that credits no share.** -/
lemma nightly_moved {back : Bool} (h : Nightly venueId db) (m : Moved back db db')
    (hback : back = true → m.account.type = .ENTERTAINER_PAYABLE → ofVenue venueId db m.payout = false) :
    Nightly venueId db' := by
  have hchange : Change db db' := .moved back m
  have hk := hchange.keeps
  have hpost : db'.postings = db.postings ++ [⟨movedOrigin back, m.payout.transactionId, m.entries⟩] :=
    congrArg Db.postings m.after
  -- the payment of what comes back to an entertainer is at another venue
  have hother : back = true → m.account.type = .ENTERTAINER_PAYABLE → ∀ p ∈ db'.payments.rows,
      p.id = m.payout.transactionId → p.venueId ≠ venueId := by
    intro hb htype p hp hid hvenue
    have hsame : db'.payments = db.payments := (congrArg Db.payments m.after :)
    have hof : ofVenue venueId db m.payout = true :=
      List.any_eq_true.mpr ⟨p, hsame ▸ hp, by simp [hid, hvenue]⟩
    rw [hback hb htype] at hof
    cases hof
  refine nightly_posted h hk (change_consistent hchange h.consistent) (change_references hchange h.references)
    hpost m.written (h.references.payouts _ m.payout_mem) (fun spec hspec e he hdir htype hamount p hp hpid hvenue => ?_)
    fun start => ?_
  · rw [movedEntries_eq, List.mem_cons, List.mem_singleton] at hspec
    rcases hspec with rfl | rfl
    · cases back
      · cases hdir
      · exact absurd hvenue (hother rfl htype p hp hpid)
    · cases htype
  · have hnone : lines (ofType .ENTERTAINER_PAYABLE) (credits (createdFrom venueId start) db'.payments)
        m.payout.transactionId (movedEntries back (payoutForPosting m.payout m.account)) = 0 := by
      rw [movedEntries_eq]
      cases back
      · simp [lines, ofType, Weight.spec, credits]
      · by_cases htype : m.account.type = .ENTERTAINER_PAYABLE
        · have hany : (db'.payments.rows.any fun q => q.id == m.payout.transactionId && createdFrom venueId start q)
              = false := List.any_eq_false.mpr fun q hq => by
            simp only [createdFrom, Bool.and_eq_true, beq_iff_eq, not_and]
            exact fun hid hvenue => absurd hvenue (hother rfl htype q hq hid)
          simp [lines, Weight.spec, credits, hany]
        · simp [lines, ofType, payoutForPosting, htype]
    rw [successful_moved m, hnone, add_zero]

/-- **What every statement that meets the condition keeps.** -/
theorem nightly_step (hchange : Change db db') (hdone : DatedTaking site w db db')
    (hD : withinTheDay venueId site w db) (h : Nightly venueId db) : Nightly venueId db' := by
  rcases quiet_or_posts hchange with ⟨hpost, hin, -⟩ | ⟨⟨s⟩⟩ | ⟨back, ⟨m⟩⟩
  · exact nightly_same h hchange.keeps (change_consistent hchange h.consistent)
      (change_references hchange h.references) hpost hin
  · exact nightly_settled h s hdone hD.1
  · refine nightly_moved h m fun hback htype => ?_
    subst hback
    obtain rfl := taken_back hdone.2 m
    by_contra hof
    exact hD.2.1 m.payout m.payout_mem rfl (m.status.mpr rfl) (by simpa using hof) m.account m.account_mem
      m.account_id htype

/-! ### What is shown -/

/-- An entertainer has one row. -/
lemma rows_nodup : ((venueEntertainerEarnings nameLe venueId now db).map (·.entertainerId)).Nodup := by
  rw [venueEntertainerEarnings, ((List.perm_insertionSort _ _).map _).nodup_iff, List.map_map]
  refine List.Nodup.map_on (fun key hkey key' hkey' hid => ?_) (List.nodup_dedup _)
  obtain ⟨row, hrow, rfl⟩ := List.mem_map.mp (List.mem_dedup.mp hkey)
  obtain ⟨row', hrow', rfl⟩ := List.mem_map.mp (List.mem_dedup.mp hkey')
  have hid' : row.1.id = row'.1.id := hid
  have hsame : row.1 = row'.1 := Table.eq_of_key (k := .id row.1.id) (mem_earningsRows.mp hrow).1.1
    (mem_earningsRows.mp hrow').1.1 (by simp [Indexed.keys]) (by simp [Indexed.keys, hid'])
  rw [groupKey, groupKey, hsame]

/-- The entry counts tonight, for some performer of the venue. -/
def countsTonight (venueId : Uuid) (start : Time) (db : Db) (e : LedgerEntry) : Bool :=
  creditsShare db e && paidAt venueId db e.transactionId && decide (start ≤ e.createdAt)

/-- **The table's shares are among the venue's credits of the night.** -/
theorem tonight_le (h : Nightly venueId db) :
    ((venueEntertainerEarnings nameLe venueId now db).map (·.tonightKobo)).sum ≤
      sumOf (countsTonight venueId (lagosDayStart now) db) (·.amountKobo) db.ledgerEntries := by
  have hrows : (venueEntertainerEarnings nameLe venueId now db).map (·.tonightKobo) =
      ((venueEntertainerEarnings nameLe venueId now db).map (·.entertainerId)).map fun id =>
        sumOf (fun e => isOn db.ledgerAccounts (isAccount .ENTERTAINER_PAYABLE (some id)) e &&
          e.direction == .CREDIT && paidAt venueId db e.transactionId && decide (lagosDayStart now ≤ e.createdAt))
          (·.amountKobo) db.ledgerEntries := by
    rw [List.map_map]
    refine List.map_congr_left fun r hr => ?_
    obtain ⟨row, hrow, hid, -, htonight, -⟩ := mem_table hr
    rw [htonight, groupSum_rows _ hrow, entriesOf_total, venueCredits, payableCredits, ← sumOf_filter,
      List.filter_filter, sumOf_filter, Function.comp_apply, hid]
    refine sumOf_congr fun e _ => ?_
    simp only [Option.all_some, tonight, Bool.and_comm, Bool.and_left_comm, Bool.and_assoc]
  rw [hrows]
  refine sum_sumOf_le rows_nodup (fun e _ id id' hid hid' => ?_) (fun e _ id hid => ?_) fun e he hcounts => ?_
  · -- the entry's account has one owner
    simp only [Bool.and_eq_true] at hid hid'
    obtain ⟨a, ha, hacc⟩ := List.any_eq_true.mp hid.1.1.1
    obtain ⟨a', ha', hacc'⟩ := List.any_eq_true.mp hid'.1.1.1
    simp only [Bool.and_eq_true, beq_iff_eq, isAccount] at hacc hacc'
    obtain rfl := eq_of_account_id ha ha' (hacc.1.trans hacc'.1.symm)
    exact Option.some.inj (hacc.2.2.symm.trans hacc'.2.2)
  · simp only [Bool.and_eq_true] at hid
    simp only [countsTonight, creditsShare, Bool.and_eq_true]
    refine ⟨⟨⟨hid.1.1.2, ?_⟩, hid.1.2⟩, hid.2⟩
    obtain ⟨a, ha, hacc⟩ := List.any_eq_true.mp hid.1.1.1
    simp only [Bool.and_eq_true, isAccount] at hacc
    exact List.any_eq_true.mpr ⟨a, ha, by simp only [Bool.and_eq_true]; exact ⟨hacc.1, hacc.2.1⟩⟩
  · obtain ⟨po, hpo, hepo⟩ := List.mem_flatMap.mp he
    simp only [countsTonight, Bool.and_eq_true] at hcounts
    obtain ⟨p, hp, hat⟩ := List.any_eq_true.mp hcounts.1.2
    simp only [Bool.and_eq_true, beq_iff_eq] at hat
    exact (h.thatDay po hpo e hepo hcounts.1.1 p hp hat.1 hat.2).1

/-- **The venue's credits of the night are for payments of the night.** -/
theorem credits_le (h : Nightly venueId db) :
    sumOf (countsTonight venueId (lagosDayStart now) db) (·.amountKobo) db.ledgerEntries ≤
      figure (ofType .ENTERTAINER_PAYABLE) (credits (createdFrom venueId (lagosDayStart now)) db.payments) db := by
  refine sumOf_le fun e he => ?_
  obtain ⟨po, hpo, hepo⟩ := List.mem_flatMap.mp he
  by_cases hshare : creditsShare db e = true
  swap
  · -- an entry that is no share counts for nothing
    rw [if_neg (by simp [countsTonight, hshare])]
    split
    · rename_i hon
      have hdebit : e.direction ≠ .CREDIT := fun hd => hshare (by simp [creditsShare, hd, hon])
      simp [Weight.entry, credits, hdebit]
    · exact le_rfl
  have hparts := hshare
  simp only [creditsShare, Bool.and_eq_true, beq_iff_eq] at hparts
  rw [if_pos hparts.2, Weight.entry, credits]
  by_cases hcounts : countsTonight venueId (lagosDayStart now) db e = true
  · rw [if_pos hcounts]
    simp only [countsTonight, Bool.and_eq_true, decide_eq_true_eq] at hcounts
    obtain ⟨p, hp, hat⟩ := List.any_eq_true.mp hcounts.1.2
    simp only [Bool.and_eq_true, beq_iff_eq] at hat
    have hday := (h.thatDay po hpo e hepo hshare p hp hat.1 hat.2).2
    have hcreated : lagosDayStart now ≤ p.createdAt := (dayStart_le hcounts.2).trans hday
    rw [if_pos ⟨hparts.1, List.any_eq_true.mpr ⟨p, hp, by simp [createdFrom, hat, hcreated]⟩⟩]
  · rw [if_neg hcounts]
    split
    · rename_i hpaid
      obtain ⟨p, hp, hat⟩ := List.any_eq_true.mp hpaid.2
      simp only [createdFrom, Bool.and_eq_true, beq_iff_eq] at hat
      exact (h.thatDay po hpo e hepo hshare p hp hat.1 hat.2.1).1
    · exact le_rfl

/-- The payments of the night are tonight's takings. -/
lemma takings_eq {o : VenueOverview} (ho : venueOverview venueId now db = .ok o)
    (hpast : ∀ payment ∈ db.payments.rows, payment.createdAt ≤ now) :
    successful (takingsFrom venueId (lagosDayStart now)) db = o.totalTipsKobo := by
  unfold venueOverview at ho
  rcases hfind : db.venues.find (·.id == venueId) with _ | venue <;> simp only [hfind, reduceCtorEq] at ho
  rw [← Except.ok.inj ho]
  refine sumOf_congr fun p hp => ?_
  have hle := hpast p hp
  by_cases hs : p.status = .SUCCESS <;> by_cases hvenue : p.venueId = venueId <;>
    by_cases hcreated : lagosDayStart now ≤ p.createdAt <;>
    simp [takingsFrom, createdFrom, isTip, tonight, hs, hvenue, hcreated, hle]

lemma nightly_elsewhere {v : Db} (he : elsewhere { v with payments := db.payments } db = some db')
    (h : Nightly venueId db) : Nightly venueId db' := by
  obtain ⟨hk, hacc, hpost, hpay⟩ := elsewhere_keeps he
  have hpayments : db'.payments = db.payments := (elsewhere_payments he).1
  refine nightly_same h hk ⟨?_, ?_⟩ ⟨?_, ?_⟩ hpost fun f => by rw [successful, hpayments, successful]
  · rw [hacc, hpost]; exact h.consistent.entries
  · rw [hacc, hpay]; exact h.consistent.payouts
  · rw [hpost, hpayments]; exact h.references.postings
  · rw [hpay, hpayments]; exact h.references.payouts

lemma nightly_empty (hpost : db.postings = []) (hpay : db.payouts.rows = [])
    (hopen : ∀ payment ∈ db.payments.rows, payment.status ≠ .SUCCESS) : Nightly venueId db := by
  refine ⟨⟨by simp [hpost], by simp [hpay]⟩, ⟨by simp [hpost], by simp [hpay]⟩, by simp [hpost], by simp [hpost],
    fun start => ?_⟩
  have hnone : successful (takingsFrom venueId start) db = 0 :=
    sumOf_eq_zero fun payment hp => by simpa using hopen payment hp
  rw [hnone, figure, Db.ledgerEntries, hpost]
  exact le_rfl

/-- **Tonight's shares never exceed tonight's takings**, as long as every payment is settled on the day it
was created and nothing that was paid to an entertainer comes back. -/
theorem shares_within_takings (config : PaymentsConfig) {p₀ : Pool App GuestOperation Unit}
    (hruns : p₀.runs = []) (hpost : p₀.store.postings = []) (hpay : p₀.store.payouts.rows = [])
    (hopen : ∀ payment ∈ p₀.store.payments.rows, payment.status ≠ .SUCCESS) :
    AlwaysWithin config venueId (MeetsIn (withinTheDay venueId)) p₀ := by
  intro p hp nameLe now o hpast ho
  have hentry : ∀ o db, Obeys (books errorPathOpen GuestOperation) (fun _ _ => True)
    ((guests config).entry o) db := fun o _ => guestProgram_sound o
  have hnightly : Nightly venueId p.store := steady_keeps_in Keeps.refl (fun _ _ _ => Keeps.trans) hentry
    (fun o => guest_dated o) (fun v db x db' x' hm => (elsewhere_keeps (guests_move hm)).1) (fun p ev hm => hm)
    (fun site w db hD => hD.2.2) (fun site w db db' hchange hdone hD => nightly_step hchange hdone hD)
    (fun v db x db' x' hm => nightly_elsewhere (guests_move hm)) hruns hp (nightly_empty hpost hpay hopen)
  calc ((venueEntertainerEarnings nameLe venueId now p.store).map (·.tonightKobo)).sum
      ≤ sumOf (countsTonight venueId (lagosDayStart now) p.store) (·.amountKobo) p.store.ledgerEntries :=
        tonight_le hnightly
    _ ≤ figure (ofType .ENTERTAINER_PAYABLE)
          (credits (createdFrom venueId (lagosDayStart now)) p.store.payments) p.store := credits_le hnightly
    _ ≤ successful (takingsFrom venueId (lagosDayStart now)) p.store := hnightly.within _
    _ = o.totalTipsKobo := takings_eq ho hpast

/-! ### A tip before midnight, settled after -/

def nightDb : Db := { guestDb with venueEntertainers := ⟨[⟨uid 8, uid 2, uid 3⟩], by decide⟩ }

theorem shares_within_takings_sample : nightDb.venues.rows ≠ [] ∧
    AlwaysWithin sampleConfig (uid 2) (MeetsIn (withinTheDay (uid 2))) ⟨nightDb, (), []⟩ :=
  ⟨by decide, shares_within_takings sampleConfig rfl rfl rfl (by simp [nightDb, guestDb, Table.empty])⟩

/-- It is midnight in Lagos at 82800000. -/
def settledAfterMidnight : List (Event App GuestOperation Db) :=
  .start (.initializePayment sampleDto) :: execs 0 [1, 2, 3] ++ .send 0 ::
    .start (.service (.settle "pay_nanoid")) :: execs 1 [82800001] ++ asks 1 agreeable ++
    execs 1 [82800002, 82800003]

/-- The share is tonight's, and the takings were yesterday's. -/
theorem shares_over_takings : ¬ AlwaysWithin sampleConfig (uid 2) anyEvent ⟨nightDb, (), []⟩ := by
  intro h
  obtain ⟨p, hp, hshown⟩ := (Option.any_eq_true _ _).mp
    (by decide +kernel : (run (guests sampleConfig) ⟨nightDb, (), []⟩ settledAfterMidnight).any (fun p =>
      ((venueEntertainerEarnings (fun _ _ => true) (uid 2) 82800010 p.store).map (·.tonightKobo)).sum == 8500 &&
        (venueOverview (uid 2) 82800010 p.store).toOption.map (·.totalTipsKobo) == some 0 &&
        p.store.payments.rows.all (·.createdAt ≤ 82800010)) = true)
  simp only [Bool.and_eq_true, beq_iff_eq, Option.map_eq_some_iff, List.all_eq_true, decide_eq_true_eq] at hshown
  obtain ⟨⟨hshares, o, ho, htips⟩, hpast⟩ := hshown
  have hok : venueOverview (uid 2) 82800010 p.store = .ok o := by
    rcases hresult : venueOverview (uid 2) 82800010 p.store with e | o'
    · rw [hresult] at ho; cases ho
    · rw [hresult] at ho; cases ho; rfl
  have hle := h p (reach_of_run (along_any _) hp) (fun _ _ => true) 82800010 o hpast hok
  rw [hshares, htips] at hle
  exact absurd hle (by decide)

end Splitcore.Dashboard
