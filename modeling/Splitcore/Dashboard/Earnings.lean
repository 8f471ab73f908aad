import Splitcore.Dashboard.Service
import Splitcore.Money.Checkout
import Splitcore.Money.Returned
import Splitcore.Reconciliation.Identities

/-!
Reported earnings: the dashboards sum what was credited to an entertainer. A settlement credits the
entertainer's share, and so does a transfer that comes back.
-/

namespace Splitcore.Dashboard

open Relational Interleaving Ledger Bookkeeping Money Reconciliation

/-! ### The entertainer's share -/

/-- The amount on entertainers' accounts. -/
def entertainerAmount (specs : List LedgerEntrySpec) : ℤ :=
  sumOf (·.accountType == .ENTERTAINER_PAYABLE) (·.amountKobo) specs

/-- What `computePaymentEntries` gives the entertainer of a payment under its snapshot rule. -/
def share (rules : Table SplitRule) (payment : PaymentTransaction) : ℤ :=
  match payment.splitRuleId.bind fun id => rules.find (·.id == id) with
  | none => 0
  | some rule =>
    match computePaymentEntries (paymentForPosting payment) (splitForPosting rule) with
    | .ok specs => entertainerAmount specs
    | .error _ => 0

/-- A payment counts for the entertainer it names, if it meets the condition. -/
def counts (entertainerId : Uuid) (cond : PaymentTransaction → Bool) (rules : Table SplitRule)
    (payment : PaymentTransaction) : ℤ :=
  if payment.entertainerId = some entertainerId ∧ cond payment = true then share rules payment else 0

/-- The sum of the entertainer's shares, over the `SUCCESS` payments that meet the condition. -/
def earnings (entertainerId : Uuid) (cond : PaymentTransaction → Bool) (db : Db) : ℤ :=
  successful (counts entertainerId cond db.splitRules) db

/-- The dashboards show the entertainer's shares. -/
structure Reported (entertainerId : Uuid) (db : Db) : Prop where
  overview : ∀ now o, entertainerOverview entertainerId now db = .ok o →
    o.totalKobo = earnings entertainerId (fun _ => true) db
  rows : ∀ nameLe venueId now, ∀ row ∈ venueEntertainerEarnings nameLe venueId now db,
    row.entertainerId = entertainerId → row.totalKobo = earnings entertainerId (·.venueId == venueId) db

/-- No reversal of a transfer finds a payout of the entertainer that is `SUCCESS`. -/
def notTakenBack (entertainerId : Uuid) : Site → Db → Prop
  | .handleTransferEventReversed payoutId, db => ∀ payout ∈ db.payouts.rows, payout.id = payoutId →
      payout.status = .SUCCESS → ∀ account ∈ db.ledgerAccounts.rows, account.id = payout.ledgerAccountId →
        ¬ payableTo entertainerId account.type account.ownerId = true
  | _, _ => True

/-! ### What a change credits -/

/-- A condition on what a payment was initialized with. -/
def Fixed (cond : PaymentTransaction → Bool) : Prop := ∀ p p', quoted p = quoted p' → cond p = cond p'

variable {db db' : Db} {entertainerId : Uuid} {cond : PaymentTransaction → Bool} {rules : Table SplitRule}

lemma any_payment {t : Table PaymentTransaction} {p : PaymentTransaction} (hp : p ∈ t.rows) :
    (t.rows.any fun q => q.id == p.id && cond q) = cond p := by
  rw [Bool.eq_iff_iff, List.any_eq_true]
  constructor
  · rintro ⟨q, hq, h⟩
    simp only [Bool.and_eq_true, beq_iff_eq] at h
    obtain rfl : q = p := Table.eq_of_key (k := .id p.id) hq hp (by simp [Indexed.keys, h.1])
      (by simp [Indexed.keys])
    exact h.2
  · exact fun h => ⟨p, hp, by simp [h]⟩

/-- What an entry counts for stays, as payments do. -/
lemma credits_keeps (hcond : Fixed cond) (hk : Keeps db db') {e : LedgerEntry}
    (he : ∃ p ∈ db.payments.rows, p.id = e.transactionId) :
    (credits cond db'.payments).entry e = (credits cond db.payments).entry e := by
  obtain ⟨p, hp, hid⟩ := he
  obtain ⟨p', hp', hq⟩ := mem_map_of_prefix hk.payments hp
  have hid' : p'.id = e.transactionId := (of_quoted hq).1.trans hid
  simp only [Weight.entry, credits]
  rw [← hid, any_payment hp, hid, ← hid', any_payment hp', hcond _ _ hq]

lemma counts_steadfast (hcond : Fixed cond) : Steadfast (counts entertainerId cond rules) := by
  intro p p' h
  obtain ⟨-, hrule, hposting⟩ := of_quoted h
  have hentertainer : p.entertainerId = p'.entertainerId := congrArg PaymentForPosting.entertainerId hposting
  simp only [counts, share, hentertainer, hcond _ _ h, hrule, hposting]

/-- The share under a rule that is there. -/
lemma share_eq {payment : PaymentTransaction} {rule : SplitRule} {specs : List LedgerEntrySpec}
    (hr : ∃ r ∈ rules.rows, terms r = terms rule) (hsnap : payment.splitRuleId = some rule.id)
    (hspecs : computePaymentEntries (paymentForPosting payment) (splitForPosting rule) = .ok specs) :
    share rules payment = entertainerAmount specs := by
  obtain ⟨r, hr, hterms⟩ := hr
  have hid : r.id = rule.id := congrArg Prod.fst hterms
  have hsplit : splitForPosting r = splitForPosting rule := congrArg Prod.snd hterms
  have hnames : Table.Names (fun r : SplitRule => r.id == rule.id) (.id rule.id) :=
    fun x hx => by simp [Indexed.keys, beq_iff_eq.mp hx]
  have hfind : rules.find (·.id == rule.id) = some r := (Table.find_eq_some hnames).mpr ⟨hr, by simp [hid]⟩
  simp only [share, hsnap, Option.bind_some, hfind, hsplit, hspecs]

/-- **A settlement credits its entertainer's share**, to the entertainer its payment names. -/
theorem lines_settled {t : Table PaymentTransaction} {payment payment' : PaymentTransaction}
    {split : SplitForPosting} (hp : payment' ∈ t.rows) (hid : payment'.id = payment.id)
    (hsame : cond payment' = cond payment) :
    lines (payableTo entertainerId) (credits cond t) payment.id
        (paymentEntries (paymentForPosting payment) split) =
      if payment.entertainerId = some entertainerId ∧ cond payment = true then
        entertainerAmount (paymentEntries (paymentForPosting payment) split) else 0 := by
  have hany : (t.rows.any fun q => q.id == payment.id && cond q) = cond payment := by
    rw [← hid, any_payment hp, hsame]
  -- a line on an entertainer's account is a credit of the payment's entertainer
  have hline : ∀ spec ∈ paymentEntries (paymentForPosting payment) split,
      spec.accountType = .ENTERTAINER_PAYABLE →
      spec.direction = .CREDIT ∧ spec.ownerId = payment.entertainerId := by
    intro spec hspec htype
    obtain ⟨hdir, h⟩ := mem_paymentEntries hspec (by rw [htype]; rfl)
    rcases h with ⟨-, howner⟩ | ⟨hvenue, -⟩
    · exact ⟨hdir, howner⟩
    · rw [htype] at hvenue; cases hvenue
  unfold lines
  split
  · rename_i hcounts
    refine sumOf_congr fun spec hspec => ?_
    by_cases htype : spec.accountType = .ENTERTAINER_PAYABLE
    · obtain ⟨hdir, howner⟩ := hline spec hspec htype
      simp [payableTo, Weight.spec, credits, htype, howner, hcounts.1, hdir, hany, hcounts.2]
    · simp [payableTo, htype]
  · rename_i hnot
    rw [← sumOf_nil (p := fun _ : LedgerEntrySpec => true) (f := fun _ => (0 : ℤ))]
    refine (sumOf_congr (q := fun _ => true) (g := fun _ => 0) fun spec hspec => ?_).trans ?_
    · by_cases htype : spec.accountType = .ENTERTAINER_PAYABLE
      · obtain ⟨-, howner⟩ := hline spec hspec htype
        by_cases hmine : payment.entertainerId = some entertainerId
        · have hcond : cond payment = false := by simpa [hmine] using hnot
          simp [Weight.spec, credits, hany, hcond]
        · simp [payableTo, howner, hmine]
      · simp [payableTo, htype]
    · simp [sumOf]

/-- **A delivery credits no entertainer; a return credits the one it returns to.** -/
lemma lines_moved {back : Bool} {payout : PayoutForPosting} {t : Table PaymentTransaction} {id : Uuid}
    (h : back = true → ¬ payableTo entertainerId payout.accountType payout.ownerId = true) :
    lines (payableTo entertainerId) (credits cond t) id (movedEntries back payout) = 0 := by
  rw [movedEntries_eq]
  cases back
  · simp [lines, payableTo, Weight.spec, credits]
  · have hother : payableTo entertainerId payout.accountType payout.ownerId = false := by simpa using h rfl
    refine sumOf_eq_zero fun spec hspec => ?_
    rcases List.mem_cons.mp hspec with rfl | hspec
    · exact hother
    · rw [List.mem_singleton.mp hspec]
      rfl

/-! ### What every change keeps -/

/-- What was credited are the shares of the payments that are `SUCCESS`, whatever rules are added. -/
structure Earns (entertainerId : Uuid) (cond : PaymentTransaction → Bool) (db : Db) : Prop where
  consistent : Consistent db
  references : References db
  entries : ∀ po ∈ db.postings, ∀ e ∈ po.entries, ∃ p ∈ db.payments.rows, p.id = e.transactionId
  earned : ∀ rules : Table SplitRule, db.splitRules.rows.map terms <+: rules.rows.map terms →
    credited entertainerId cond db = successful (counts entertainerId cond rules) db

lemma Earns.credits_eq (h : Earns entertainerId cond db) (hcond : Fixed cond) (hk : Keeps db db') :
    ∀ po ∈ db.postings, ∀ e ∈ po.entries,
      (credits cond db'.payments).entry e = (credits cond db.payments).entry e :=
  fun po hpo e he => credits_keeps hcond hk (h.entries po hpo e he)

/-- The payment of an entry is still there. -/
lemma payment_keeps (hk : Keeps db db') {id : Uuid} (h : ∃ p ∈ db.payments.rows, p.id = id) :
    ∃ p ∈ db'.payments.rows, p.id = id := by
  obtain ⟨p, hp, hid⟩ := h
  obtain ⟨p', hp', hq⟩ := mem_map_of_prefix hk.payments hp
  exact ⟨p', hp', (of_quoted hq).1.trans hid⟩

/-- Nothing was posted or settled. -/
lemma earns_same (h : Earns entertainerId cond db) (hcond : Fixed cond) (hk : Keeps db db')
    (hc : Consistent db') (hr : References db') (hpost : db'.postings = db.postings)
    (hin : ∀ f, successful f db' = successful f db) : Earns entertainerId cond db' := by
  refine ⟨hc, hr, fun po hpo e he => payment_keeps hk (h.entries po (hpost ▸ hpo) e he), fun rules hrules => ?_⟩
  rw [hin, ← h.earned rules (hk.splitRules.trans hrules)]
  exact figure_same h.consistent hk.ledgerAccounts hpost (h.credits_eq hcond hk)

/-- A posting that credits the entertainer what the payments count. -/
lemma earns_posted {po : Posting} {id : Uuid} {specs : List LedgerEntrySpec}
    (h : Earns entertainerId cond db) (hcond : Fixed cond) (hk : Keeps db db') (hc : Consistent db')
    (hr : References db') (hpost : db'.postings = db.postings ++ [po])
    (hw : List.Forall₂ (Writes db' id) specs po.entries) (hid : ∃ p ∈ db.payments.rows, p.id = id)
    (hin : ∀ rules : Table SplitRule, db'.splitRules.rows.map terms <+: rules.rows.map terms →
      successful (counts entertainerId cond rules) db' = successful (counts entertainerId cond rules) db +
        lines (payableTo entertainerId) (credits cond db'.payments) id specs) :
    Earns entertainerId cond db' := by
  refine ⟨hc, hr, fun po' hpo e he => ?_, fun rules hrules => ?_⟩
  · rw [hpost, List.mem_append, List.mem_singleton] at hpo
    rcases hpo with hpo | rfl
    · exact payment_keeps hk (h.entries po' hpo e he)
    · obtain ⟨spec, -, hwrites⟩ := exists_of_forall₂ hw he
      exact payment_keeps hk (hwrites.1 ▸ hid)
  · rw [hin rules hrules, ← h.earned rules (hk.splitRules.trans hrules)]
    exact figure_posted h.consistent hk.ledgerAccounts hpost hw (h.credits_eq hcond hk)

/-- **A change that takes nothing back from the entertainer keeps what is earned.** -/
theorem change_earns (hcond : Fixed cond) (hchange : Change db db')
    (hkept : ∀ m : Moved true db db', ¬ payableTo entertainerId m.account.type m.account.ownerId = true)
    (h : Earns entertainerId cond db) : Earns entertainerId cond db' := by
  have hk := hchange.keeps
  have hc := change_consistent hchange h.consistent
  have hr := change_references hchange h.references
  rcases quiet_or_posts hchange with ⟨hpost, hin, -⟩ | ⟨⟨s⟩⟩ | ⟨back, ⟨m⟩⟩
  · exact earns_same h hcond hk hc hr hpost hin
  · refine earns_posted h hcond hk hc hr (congrArg Db.postings s.after) s.written
      ⟨s.payment, s.payment_mem, rfl⟩ fun rules hrules => ?_
    obtain ⟨-, hspecs⟩ := computePaymentEntries_ok s.computed
    obtain ⟨payment', hp', hq⟩ := mem_map_of_prefix hk.payments s.payment_mem
    obtain ⟨rule', hrule', hterms⟩ := mem_map_of_prefix hk.splitRules s.rule_mem
    obtain ⟨rule, hrule, hterms'⟩ := mem_map_of_prefix hrules hrule'
    rw [successful_settled (counts_steadfast hcond) s, hspecs,
      lines_settled hp' (of_quoted hq).1 (hcond _ _ hq), ← hspecs, counts,
      share_eq ⟨rule, hrule, hterms'.trans hterms⟩ s.snapshot s.computed]
  · refine earns_posted h hcond hk hc hr (congrArg Db.postings m.after) m.written
      (h.references.payouts _ m.payout_mem) fun rules hrules => ?_
    rw [successful_moved m, lines_moved fun hback => ?_, add_zero]
    subst hback
    exact hkept m

/-- Only the statement that takes a reversal takes a payout back. -/
lemma taken_back {site : Site} (htakes : Takes site db db') (m : Moved true db db') :
    site = .handleTransferEventReversed m.payout.id := by
  refine (htakes m.payout m.payout_mem (m.status.mpr rfl)).resolve_right ?_
  rintro ⟨p', hp', hid, hstatus⟩
  -- the row the update takes `SUCCESS` from
  have hrows : db'.payouts = m.payouts' := congrArg Db.payouts m.after
  have hupdated : m.update m.payout ∈ db'.payouts.rows := by
    rw [hrows, Table.rows_update m.updated]
    exact List.mem_map.mpr ⟨m.payout, m.payout_mem, if_pos m.guarded⟩
  have hid' : (m.update m.payout).id = m.payout.id := congrArg Obligation.id (m.keeps m.payout)
  obtain rfl : p' = m.update m.payout := Table.eq_of_key (k := .id m.payout.id) hp' hupdated
    (by simp [Indexed.keys, hid]) (by simp [Indexed.keys, hid'])
  exact absurd (m.status'.mp hstatus) (by simp)

/-- What a statement takes back, it finds `SUCCESS`. -/
lemma takes_moved {site : Site} (htakes : Takes site db db') (hC : notTakenBack entertainerId site db)
    (m : Moved true db db') : ¬ payableTo entertainerId m.account.type m.account.ownerId = true := by
  obtain rfl := taken_back htakes m
  exact hC m.payout m.payout_mem rfl (m.status.mpr rfl) m.account m.account_mem m.account_id

lemma arriving_earns {v : Db} (hcond : Fixed cond) (he : arriving v db = some db')
    (h : Earns entertainerId cond db) : Earns entertainerId cond db' := by
  obtain ⟨hk, hacc, hpost, hpay⟩ := elsewhere_keeps (arriving_elsewhere he).1
  refine earns_same h hcond hk ⟨?_, ?_⟩ ⟨fun po hpo => ?_, fun p hp => ?_⟩ hpost fun f => successful_arriving he
  · rw [hacc, hpost]; exact h.consistent.entries
  · rw [hacc, hpay]; exact h.consistent.payouts
  · exact payment_keeps hk (h.references.postings po (hpost ▸ hpo))
  · exact payment_keeps hk (h.references.payouts p (hpay ▸ hp))

lemma earns_empty (hpost : db.postings = []) (hpay : db.payouts.rows = [])
    (hopen : ∀ payment ∈ db.payments.rows, payment.status ≠ .SUCCESS) : Earns entertainerId cond db := by
  refine ⟨⟨by simp [hpost], by simp [hpay]⟩, ⟨by simp [hpost], by simp [hpay]⟩, by simp [hpost], fun rules _ => ?_⟩
  have hnone : successful (counts entertainerId cond rules) db = 0 :=
    sumOf_eq_zero fun payment hp => by simpa using hopen payment hp
  rw [hnone, credited, figure, Db.ledgerEntries, hpost]
  rfl

/-- Wherever the allowed runs lead, the dashboards show the entertainer's shares. -/
def AlwaysReported (entertainerId : Uuid) (ok : Pool App Operation Unit → Event App Operation Db → Prop)
    (p₀ : Pool App Operation Unit) : Prop :=
  ∀ p, Reach arrivals ok p₀ p → Reported entertainerId p.store

/-- **Reported earnings are the entertainer's shares**, as long as no transfer that was paid to the
entertainer comes back. -/
theorem earnings_reported {p₀ : Pool App Operation Unit} (hruns : p₀.runs = [])
    (hpost : p₀.store.postings = []) (hpay : p₀.store.payouts.rows = [])
    (hopen : ∀ payment ∈ p₀.store.payments.rows, payment.status ≠ .SUCCESS) :
    AlwaysReported entertainerId (Meets (notTakenBack entertainerId)) p₀ := by
  intro p h
  have hentry : ∀ o db, Obeys (relyGuarantee Keeps (fun s s' => Change s s' ∧
      ∃ site, notTakenBack entertainerId site s ∧ Takes site s s') (notTakenBack entertainerId) Operation)
    (fun _ _ => True) (arrivals.entry o) db := fun o _ => obeys_each (program_each o) (program_sound o)
  have hearns : ∀ cond, Fixed cond → Earns entertainerId cond p.store := by
    intro cond hcond
    exact (steady_keeps (G := Keeps) Keeps.refl (fun _ _ _ => Keeps.trans) hentry
      (fun v db x db' x' hm => (elsewhere_keeps (arriving_elsewhere (arrivals_move hm)).1).1) (fun p ev hm => hm)
      (fun db db' _ ht => by
        obtain ⟨hchange, site, hC, htakes⟩ := ht
        exact change_earns hcond hchange (takes_moved htakes hC))
      (fun v db x db' x' hm => arriving_earns hcond (arrivals_move hm)) (steady_start hruns) h
      (earns_empty hpost hpay hopen)).2
  constructor
  case overview =>
    intro now o ho
    have hall := hearns (fun _ => true) fun _ _ _ => rfl
    rw [overview_total (fun e he => ?_) ho]
    · exact hall.earned _ List.prefix_rfl
    · obtain ⟨po, hpo, hepo⟩ := List.mem_flatMap.mp he
      exact hall.entries po hpo e hepo
  case rows =>
    intro nameLe venueId now row hrow hid
    have hat : Fixed (·.venueId == venueId) := fun p p' h => by
      have hvenue : p.venueId = p'.venueId := congrArg PaymentForPosting.venueId (of_quoted h).2.2
      simp [hvenue]
    rw [row_total hrow, hid]
    exact (hearns _ hat).earned _ List.prefix_rfl

theorem earnings_reported_sample : sampleDb.payments.rows ≠ [] ∧
    AlwaysReported (uid 3) (Meets (notTakenBack (uid 3))) ⟨sampleDb, (), []⟩ :=
  ⟨by decide, earnings_reported rfl rfl rfl (by decide)⟩

/-- What the entertainer is shown. -/
def shown (db : Db) : Option ℤ := (entertainerOverview (uid 3) 13 db).toOption.map (·.totalKobo)

/-- The transfer of the one payment's share is paid and comes back, and the share is shown twice. -/
theorem earnings_inflated : ¬ AlwaysReported (uid 3) anyEvent ⟨sampleDb, (), []⟩ := by
  intro h
  obtain ⟨p, hp, hshown⟩ := (Option.any_eq_true _ _).mp
    (by decide +kernel : (run arrivals ⟨sampleDb, (), []⟩ settledPaidReturned).any
      (fun p => shown p.store == some 17000 &&
        earnings (uid 3) (fun _ => true) p.store == 8500) = true)
  simp only [Bool.and_eq_true, beq_iff_eq, shown, Option.map_eq_some_iff] at hshown
  obtain ⟨⟨o, ho, htotal⟩, hearned⟩ := hshown
  have hok : entertainerOverview (uid 3) 13 p.store = .ok o := by
    rcases hresult : entertainerOverview (uid 3) 13 p.store with e | o'
    · rw [hresult] at ho; cases ho
    · rw [hresult] at ho; cases ho; rfl
  have hreported := (h p (reach_of_run (along_any _) hp)).overview 13 o hok
  rw [htotal, hearned] at hreported
  exact absurd hreported (by decide)

end Splitcore.Dashboard
