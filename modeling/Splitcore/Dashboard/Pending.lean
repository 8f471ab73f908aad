import Splitcore.Dashboard.Earnings

/-!
Pending payouts, beside what is owed. The dashboards go by the status of a payout, the ledger by its
entries; a payout given up for review is still owed.
-/

namespace Splitcore.Dashboard

open Relational Interleaving Ledger Bookkeeping Money Reconciliation

/-- Whose money it is. -/
inductive Owner
  | entertainer (id : Uuid)
  | venue (id : Uuid)

namespace Owner

def type : Owner → LedgerAccountType
  | .entertainer _ => .ENTERTAINER_PAYABLE
  | .venue _ => .VENUE_PAYABLE

def id : Owner → Uuid
  | .entertainer id => id
  | .venue id => id

/-- The payout is on the owner's account. -/
def has (owner : Owner) (db : Db) (p : Payout) : Bool := onAccount owner.type owner.id db p

/-- The owner is in the database. -/
def Known : Owner → Db → Prop
  | .entertainer id, db => ∃ entertainer, db.entertainers.find (·.id == id) = some entertainer
  | .venue id, db => ∃ venue, db.venues.find (·.id == id) = some venue

end Owner

/-- What the dashboards show as pending is owed; to an entertainer, it and what was paid out are the
accumulated share. -/
def PendingIsOwed : Owner → Db → Prop
  | .entertainer id, db => ∀ now o, entertainerOverview id now db = .ok o →
    (∀ creditsFirst, o.pendingPayoutsKobo = getBalance creditsFirst .ENTERTAINER_PAYABLE (some id) db) ∧
    o.pendingPayoutsKobo + o.paidOutKobo = earnings id (fun _ => true) db
  | .venue id, db => ∀ now o, venueOverview id now db = .ok o →
    ∀ creditsFirst, o.ownPendingPayoutsKobo = getBalance creditsFirst .VENUE_PAYABLE (some id) db

/-- None of the owner's payouts is given up, for a person to look at. -/
def NoneGivenUp (owner : Owner) (db : Db) : Prop :=
  ∀ p ∈ db.payouts.rows, owner.has db p = true → p.status ≠ .FAILED

/-- No `markForReview` finds a payout of the owner. -/
def givesUpNone (owner : Owner) : Site → Db → Prop
  | .markForReview payoutId, db => ∀ p ∈ db.payouts.rows, p.id = payoutId → p.status ≠ .SUCCESS →
      owner.has db p = false
  | _, _ => True

variable {db db' : Db} {owner : Owner} {entertainerId : Uuid} {site : Site} {p p' : Payout}

/-! ### Statuses -/

/-- What a statement makes of the status of a payout that is there: only a review gives it up. -/
def Shelves (site : Site) (db db' : Db) : Prop :=
  ∀ p ∈ db.payouts.rows, ∃ p' ∈ db'.payouts.rows, p'.id = p.id ∧
    (p'.status = p.status ∨ OPEN_PAYOUT_STATUSES.contains p'.status = true ∨ p'.status = .SUCCESS ∨
      p'.status = .FAILED ∧ site = .markForReview p.id ∧ p.status ≠ .SUCCESS)

lemma shelves_same (h : db'.payouts = db.payouts) : Shelves site db db' :=
  fun p hp => ⟨p, h ▸ hp, rfl, .inl rfl⟩

lemma Moves.shelves (h : Moves site db db') : Shelves site db db' := by
  intro p hp
  obtain ⟨p', hp', hid, hstep⟩ := h p hp
  refine ⟨p', hp', hid, ?_⟩
  generalize p.status = status, p'.status = status' at hstep
  cases hstep with
  | stays => exact .inl rfl
  | held | claimed | returned | failed => exact .inr (.inl (by decide))
  | delivered => exact .inr (.inr (.inl rfl))
  | reviewed hsite hstatus => exact .inr (.inr (.inr ⟨rfl, hsite, hstatus⟩))

lemma retryPayout_shelves {payoutId : Uuid} : (retryPayout payoutId).Each Shelves := by
  refine Prog.each_bind (Prog.each_command (fun _ => shelves_same rfl) fun w s n s' hm => ?_) fun n => ?_
  · obtain ⟨m, h⟩ := Tx.run_ok.mp hm
    simp only [Tx.bind_ok, Tx.now_ok] at h
    obtain ⟨_, _, ⟨rfl, rfl⟩, h⟩ := h
    obtain ⟨-, t, ht, hafter⟩ := Model.updateMany_ok h
    obtain rfl : s' = { s with payouts := t } := congrArg Prod.fst hafter
    intro p hp
    have hmem : (if p.id == payoutId && p.status == .FAILED then
        { p with status := .RETRYING, failureReason := none, updatedAt := w.now } else p) ∈ t.rows := by
      rw [Table.rows_update ht]
      exact List.mem_map.mpr ⟨p, hp, rfl⟩
    refine ⟨_, hmem, ?_, ?_⟩ <;> split
    · rfl
    · rfl
    · exact .inr (.inl rfl)
    · exact .inl rfl
  · split
    · refine Prog.each_bind (Prog.each_query fun _ => shelves_same rfl) fun found => ?_
      split <;> trivial
    · refine Prog.each_bind Prog.each_request fun _ =>
        Prog.each_command (fun _ => shelves_same rfl) fun w s a s' h => ?_
      rw [(findUniqueOrThrow_ok h).2]
      exact shelves_same rfl

theorem program_shelves (o : Operation) : o.program.Each Shelves := by
  by_cases ho : ∃ payoutId, o = .retryPayout payoutId
  · obtain ⟨payoutId, rfl⟩ := ho
    exact Prog.each_bind retryPayout_shelves fun _ => trivial
  · push Not at ho
    exact (program_moves o ho).mono fun _ _ _ => Moves.shelves

/-- A payout was there, owing the same, or is new. -/
lemma payout_origin (hc : Change db db') (hp' : p' ∈ db'.payouts.rows) :
    (∃ p ∈ db.payouts.rows, obligation p = obligation p') ∨ Untried p' := by
  have hupdated : ∀ {t : Table Payout} {guard : Payout → Bool} {update : Payout → Payout},
      (∀ p, obligation (update p) = obligation p) → db.payouts.update guard update = some t → p' ∈ t.rows →
      ∃ p ∈ db.payouts.rows, obligation p = obligation p' := fun hkeeps ht hmem => by
    rw [Table.rows_update ht, List.mem_map] at hmem
    obtain ⟨p, hp, rfl⟩ := hmem
    refine ⟨p, hp, ?_⟩
    split
    · exact (hkeeps p).symm
    · rfl
  cases hc with
  | same | payments | created => exact .inl ⟨p', hp', rfl⟩
  | payouts guard update t ht hkeeps => exact .inl (hupdated hkeeps ht hp')
  | settled s =>
    rw [congrArg Db.payouts s.after, s.payouts_rows, List.mem_append] at hp'
    rcases hp' with hp' | hp'
    · exact .inl ⟨p', hp', rfl⟩
    · exact .inr (s.untried p' hp')
  | moved back m =>
    rw [congrArg Db.payouts m.after] at hp'
    exact .inl (hupdated m.keeps m.updated hp')

/-- A payout that is there after a statement: it was there, and the statement made it so, or is new. -/
lemma shelves_origin (hc : Change db db') (hs : Shelves site db db') (hp' : p' ∈ db'.payouts.rows) :
    (∃ p ∈ db.payouts.rows, obligation p = obligation p' ∧
      (p'.status = p.status ∨ OPEN_PAYOUT_STATUSES.contains p'.status = true ∨ p'.status = .SUCCESS ∨
        p'.status = .FAILED ∧ site = .markForReview p.id ∧ p.status ≠ .SUCCESS)) ∨ Untried p' := by
  rcases payout_origin hc hp' with ⟨p, hp, hob⟩ | hnew
  · obtain ⟨p'', hp'', hid, hstatus⟩ := hs p hp
    have hid' : p.id = p'.id := congrArg Obligation.id hob
    obtain rfl : p'' = p' := Table.eq_of_key (k := .id p.id) hp'' hp' (by simp [Indexed.keys, hid])
      (by simp [Indexed.keys, hid'])
    exact .inl ⟨p, hp, hob, hstatus⟩
  · exact .inr hnew

/-! ### Whose payout it is -/

lemma has_of_mem {a : LedgerAccount} (ha : a ∈ db.ledgerAccounts.rows) (hid : a.id = p.ledgerAccountId) :
    owner.has db p = isAccount owner.type (some owner.id) a := by
  rw [Bool.eq_iff_iff, Owner.has, onAccount, List.any_eq_true]
  constructor
  · rintro ⟨a', ha', h⟩
    simp only [Bool.and_eq_true, beq_iff_eq] at h
    rw [← eq_of_account_id ha' ha (h.1.trans hid.symm)]
    exact h.2
  · exact fun h => ⟨a, ha, by simp [h, hid]⟩

/-- Accounts are added and never change, so a payout stays with its owner. -/
lemma has_mono (hpre : db.ledgerAccounts.rows <+: db'.ledgerAccounts.rows)
    (hacc : ∃ a ∈ db.ledgerAccounts.rows, a.id = p.ledgerAccountId ∧ isPayable a.type = true)
    (hsame : p'.ledgerAccountId = p.ledgerAccountId) : owner.has db' p' = owner.has db p := by
  obtain ⟨a, ha, hid, -⟩ := hacc
  rw [has_of_mem ha hid, has_of_mem (hpre.subset ha) (hid.trans hsame.symm)]

/-! ### What stays so -/

/-- A payout owes something, and nobody cancels it. -/
def Standing (db : Db) : Prop := ∀ p ∈ db.payouts.rows, 0 < p.amountKobo ∧ p.status ≠ .CANCELLED

lemma standing_step (hc : Change db db') (hs : Shelves site db db') (h : Standing db) : Standing db' := by
  intro p' hp'
  rcases shelves_origin hc hs hp' with ⟨p, hp, hob, hstatus⟩ | hnew
  · obtain ⟨hpos, hcancel⟩ := h p hp
    have hamount : p.amountKobo = p'.amountKobo := congrArg Obligation.amountKobo hob
    refine ⟨hamount ▸ hpos, ?_⟩
    rcases hstatus with h | h | h | ⟨h, -⟩
    · rw [h]; exact hcancel
    · rintro h'; rw [h'] at h; exact absurd h (by decide)
    · rw [h]; decide
    · rw [h]; decide
  · exact ⟨hnew.positive, by rw [hnew.status]; decide⟩

lemma noneGivenUp_step (hcons : Consistent db) (hc : Change db db') (hs : Shelves site db db')
    (hC : givesUpNone owner site db) (h : NoneGivenUp owner db) : NoneGivenUp owner db' := by
  intro p' hp' hhas
  rcases shelves_origin hc hs hp' with ⟨p, hp, hob, hstatus⟩ | hnew
  · have haccount : p'.ledgerAccountId = p.ledgerAccountId := (congrArg Obligation.ledgerAccountId hob).symm
    rw [has_mono hc.keeps.ledgerAccounts (hcons.payouts p hp) haccount] at hhas
    rcases hstatus with h' | h' | h' | ⟨-, rfl, hopen⟩
    · rw [h']; exact h p hp hhas
    · rintro hfailed; rw [hfailed] at h'; exact absurd h' (by decide)
    · rw [h']; decide
    · -- a review of the owner's payout, which the condition rules out
      rw [hC p hp rfl hopen] at hhas
      cases hhas
  · rw [hnew.status]; decide

/-! ### The accumulated share -/

/-- All the owner's payouts, whatever their status. -/
def owedTo (owner : Owner) (db : Db) : ℤ := sumOf (owner.has db) (·.amountKobo) db.payouts.rows

/-- A change leaves what is owed, or is a settlement. -/
lemma obligations_change (hc : Change db db') :
    db'.payouts.rows.map obligation = db.payouts.rows.map obligation ∨ Nonempty (Settled db db') := by
  cases hc with
  | same | payments | created => exact .inl rfl
  | payouts guard update t ht hkeeps => exact .inl (Table.map_update hkeeps ht)
  | settled s => exact .inr ⟨s⟩
  | moved back m =>
    rw [congrArg Db.payouts m.after]
    exact .inl (Table.map_update m.keeps m.updated)

lemma owedTo_kept (hcons : Consistent db) (hpre : db.ledgerAccounts.rows <+: db'.ledgerAccounts.rows) :
    sumOf (owner.has db') (·.amountKobo) db.payouts.rows = owedTo owner db :=
  sumOf_congr fun p hp => by rw [has_mono hpre (hcons.payouts p hp) rfl]

lemma owedTo_same (hcons : Consistent db) (hpre : db.ledgerAccounts.rows <+: db'.ledgerAccounts.rows)
    (hsame : db'.payouts.rows.map obligation = db.payouts.rows.map obligation) :
    owedTo owner db' = owedTo owner db := by
  have hsum : ∀ rows : List Payout, sumOf (owner.has db') (·.amountKobo) rows =
      sumOf (fun o : Obligation => db'.ledgerAccounts.rows.any fun a =>
        a.id == o.ledgerAccountId && isAccount owner.type (some owner.id) a) (·.amountKobo)
        (rows.map obligation) := fun rows => by
    rw [sumOf_map]
    rfl
  rw [← owedTo_kept hcons hpre, owedTo, hsum, hsum, hsame]

/-- A settlement owes what it posts to the owner. -/
lemma owedTo_settled (hcons : Consistent db) (s : Settled db db') : owedTo owner db' = owedTo owner db +
    sumOf (fun spec => spec.accountType == owner.type && spec.ownerId == some owner.id) (·.amountKobo)
      (s.specs.filter isObligation) := by
  have hnew : sumOf (owner.has db') (·.amountKobo) s.payouts =
      sumOf (fun spec => spec.accountType == owner.type && spec.ownerId == some owner.id) (·.amountKobo)
        (s.specs.filter isObligation) := by
    have howed := s.owed
    generalize s.specs.filter isObligation = specs, s.payouts = payouts at howed
    induction payouts generalizing specs with
    | nil => rw [List.forall₂_nil_right_iff.mp howed]; rfl
    | cons p payouts ih =>
      obtain ⟨spec, specs, hspec, hspecs, rfl⟩ := List.forall₂_cons_right_iff.mp howed
      obtain ⟨-, hamount, hmem⟩ := hspec
      have hhas : owner.has db' p = (spec.accountType == owner.type && spec.ownerId == some owner.id) :=
        has_of_mem hmem rfl
      have hamount' : p.amountKobo = spec.amountKobo := hamount
      rw [sumOf_cons, sumOf_cons, ih _ hspecs, hhas, hamount']
  rw [owedTo, congrArg Db.payouts s.after, s.payouts_rows, sumOf_append, hnew,
    owedTo_kept hcons (Change.settled s).keeps.ledgerAccounts]

lemma fixed_all : Fixed fun _ => true := fun _ _ _ => rfl

/-- Of what a payment owes, the entertainer's part. -/
lemma owed_share {payment : PaymentTransaction} {split : SplitForPosting} :
    sumOf (fun spec => spec.accountType == .ENTERTAINER_PAYABLE && spec.ownerId == some entertainerId)
        (·.amountKobo) ((paymentEntries (paymentForPosting payment) split).filter isObligation) =
      if payment.entertainerId = some entertainerId then
        entertainerAmount (paymentEntries (paymentForPosting payment) split) else 0 := by
  -- a line on an entertainer's account is a credit of the payment's entertainer
  have hline : ∀ spec ∈ paymentEntries (paymentForPosting payment) split,
      spec.accountType = .ENTERTAINER_PAYABLE →
      isObligation spec = true ∧ spec.ownerId = payment.entertainerId := by
    intro spec hspec htype
    obtain ⟨hdir, h⟩ := mem_paymentEntries hspec (by rw [htype]; rfl)
    rcases h with ⟨-, howner⟩ | ⟨hvenue, -⟩
    · exact ⟨by simp [isObligation, hdir, htype, isPayable], howner⟩
    · rw [htype] at hvenue; cases hvenue
  rw [← sumOf_filter, List.filter_filter, sumOf_filter]
  split
  · rename_i hmine
    refine sumOf_congr fun spec hspec => ?_
    by_cases htype : spec.accountType = .ENTERTAINER_PAYABLE
    · obtain ⟨hob, howner⟩ := hline spec hspec htype
      simp [htype, howner, hmine, hob]
    · simp [htype]
  · rename_i hother
    refine sumOf_eq_zero fun spec hspec => ?_
    by_cases htype : spec.accountType = .ENTERTAINER_PAYABLE
    · obtain ⟨-, howner⟩ := hline spec hspec htype
      simp [howner, hother]
    · simp [htype]

/-- What is owed to the entertainer are its shares, whatever rules are added. -/
def Shared (entertainerId : Uuid) (db : Db) : Prop :=
  ∀ rules : Table SplitRule, db.splitRules.rows.map terms <+: rules.rows.map terms →
    owedTo (.entertainer entertainerId) db = successful (counts entertainerId (fun _ => true) rules) db

lemma shared_same (hcons : Consistent db) (hk : Keeps db db')
    (hsame : db'.payouts.rows.map obligation = db.payouts.rows.map obligation)
    (hin : ∀ f, successful f db' = successful f db) (h : Shared entertainerId db) : Shared entertainerId db' :=
  fun rules hrules => by
    rw [hin, owedTo_same hcons hk.ledgerAccounts hsame, h rules (hk.splitRules.trans hrules)]

lemma shared_change (hcons : Consistent db) (hc : Change db db') (h : Shared entertainerId db) :
    Shared entertainerId db' := by
  have hk := hc.keeps
  have hsettled : ∀ s : Settled db db', Shared entertainerId db' := fun s rules hrules => by
    obtain ⟨-, hspecs⟩ := computePaymentEntries_ok s.computed
    obtain ⟨rule', hrule', hterms⟩ := mem_map_of_prefix hk.splitRules s.rule_mem
    obtain ⟨rule, hrule, hterms'⟩ := mem_map_of_prefix hrules hrule'
    have hshare := share_eq ⟨rule, hrule, hterms'.trans hterms⟩ s.snapshot s.computed
    have howed := @owed_share entertainerId s.payment (splitForPosting s.rule)
    rw [successful_settled (counts_steadfast fixed_all) s, ← h rules (hk.splitRules.trans hrules),
      owedTo_settled hcons s, hspecs]
    simp only [Owner.type, Owner.id, howed, counts, hshare, hspecs, and_true]
  rcases quiet_or_posts hc with ⟨-, hin, -⟩ | ⟨⟨s⟩⟩ | ⟨back, ⟨m⟩⟩
  · rcases obligations_change hc with hsame | ⟨⟨s⟩⟩
    · exact shared_same hcons hk hsame hin h
    · exact hsettled s
  · exact hsettled s
  · refine shared_same hcons hk ?_ (fun f => successful_moved m) h
    rw [congrArg Db.payouts m.after]
    exact Table.map_update m.keeps m.updated

/-! ### Beside the ledger -/

/-- The owner's payouts in some statuses. -/
def sumBy (owner : Owner) (cond : PayoutStatus → Bool) (db : Db) : ℤ :=
  sumOf (fun p => cond p.status && owner.has db p) (·.amountKobo) db.payouts.rows

lemma type_payable : isPayable owner.type = true := by cases owner <;> rfl

/-- The account of an owner, if there is one, has its payouts. -/
lemma has_account {account : LedgerAccount}
    (hfind : db.ledgerAccounts.find (isAccount owner.type (some owner.id)) = some account) (p : Payout) :
    owner.has db p = (p.ledgerAccountId == account.id) := by
  obtain ⟨hmem, hcond⟩ := (Table.find_eq_some names_account).mp hfind
  rw [Bool.eq_iff_iff, Owner.has, onAccount, List.any_eq_true, beq_iff_eq]
  constructor
  · rintro ⟨a, ha, h⟩
    simp only [Bool.and_eq_true, beq_iff_eq] at h
    rw [← h.1, Table.Names.eq names_account hmem hcond ha h.2]
  · exact fun h => ⟨account, hmem, by simp [h, hcond]⟩

lemma has_none (hfind : db.ledgerAccounts.find (isAccount owner.type (some owner.id)) = none) (p : Payout) :
    owner.has db p = false :=
  List.any_eq_false.mpr fun a ha => by simp [Table.find_eq_none.mp hfind a ha]

/-- **The balance is what is not paid**, whatever became of it. -/
theorem balance_not_paid (hsane : Sane db) (creditsFirst : Bool) :
    getBalance creditsFirst owner.type (some owner.id) db = sumBy owner (· != .SUCCESS) db := by
  rw [getBalance_eq, sumBy]
  rcases hfind : db.ledgerAccounts.find (isAccount owner.type (some owner.id)) with _ | account
  · have hnone : db.ledgerEntries.filter (isOn db.ledgerAccounts (isAccount owner.type (some owner.id))) = [] :=
      List.filter_eq_nil_iff.mpr fun e _ => by simp [isOn_none hfind]
    rw [hnone, sumOf_eq_zero fun p _ => by simp [has_none hfind p]]
    rfl
  · obtain ⟨hmem, hcond⟩ := (Table.find_eq_some names_account).mp hfind
    have htype : account.type = owner.type := by
      simp only [isAccount, Bool.and_eq_true, beq_iff_eq] at hcond
      exact hcond.1
    have hentries : (db.ledgerEntries.filter
        (isOn db.ledgerAccounts (isAccount owner.type (some owner.id)))).map toBalance =
        Money.entriesOf db account.id := by
      rw [Money.entriesOf]
      refine congrArg (List.map toBalance) (List.filter_congr fun e _ => ?_)
      rw [isOn_account hfind]
      rfl
    rw [hentries, ← htype, hsane.balanceOf_eq hmem (htype ▸ type_payable), owedOn, sumOf_filter]
    refine sumOf_congr fun p _ => ?_
    by_cases hacc : p.ledgerAccountId = account.id <;> by_cases hs : p.status = .SUCCESS <;>
      simp [has_account hfind, hacc, hs]

/-- What is not paid is pending, or given up. -/
lemma not_paid (h : Standing db) : sumBy owner (· != .SUCCESS) db =
    sumBy owner OPEN_PAYOUT_STATUSES.contains db + sumBy owner (· == .FAILED) db := by
  have hsplit : ∀ rows : List Payout, (∀ p ∈ rows, p.status ≠ .CANCELLED) →
      sumOf (fun p => (p.status != .SUCCESS) && owner.has db p) (·.amountKobo) rows =
        sumOf (fun p => OPEN_PAYOUT_STATUSES.contains p.status && owner.has db p) (·.amountKobo) rows +
          sumOf (fun p => p.status == .FAILED && owner.has db p) (·.amountKobo) rows := by
    intro rows hrows
    induction rows with
    | nil => rfl
    | cons p rows ih =>
      have hp := hrows p (by simp)
      rw [sumOf_cons, sumOf_cons, sumOf_cons, ih fun q hq => hrows q (List.mem_cons_of_mem _ hq)]
      rcases hs : p.status <;> simp_all [OPEN_PAYOUT_STATUSES] <;> abel
  exact hsplit _ fun p hp => (h p hp).2

/-- Everything is paid, or it is not. -/
lemma owedTo_split : owedTo owner db =
    sumBy owner (· != .SUCCESS) db + sumBy owner (· == .SUCCESS) db := by
  rw [owedTo, sumBy, sumBy]
  induction db.payouts.rows with
  | nil => rfl
  | cons p rows ih =>
    rw [sumOf_cons, sumOf_cons, sumOf_cons, ih]
    by_cases hs : p.status = .SUCCESS <;> simp [hs] <;> abel

/-- **Nothing is given up exactly if what was given up sums up to nothing**, as every payout is of a
positive amount. -/
lemma givenUp_zero (h : Standing db) : sumBy owner (· == .FAILED) db = 0 ↔ NoneGivenUp owner db := by
  have hzero : ∀ rows : List Payout, (∀ p ∈ rows, 0 < p.amountKobo) →
      (sumOf (fun p => p.status == .FAILED && owner.has db p) (·.amountKobo) rows = 0 ↔
        ∀ p ∈ rows, owner.has db p = true → p.status ≠ .FAILED) := by
    intro rows hrows
    induction rows with
    | nil => simp
    | cons p rows ih =>
      have hp := hrows p (by simp)
      have hrest : ∀ q ∈ rows, 0 < q.amountKobo := fun q hq => hrows q (List.mem_cons_of_mem _ hq)
      have hnonneg := sumOf_nonneg (p := fun p => p.status == .FAILED && owner.has db p)
        (f := (·.amountKobo)) fun q hq => (hrest q hq).le
      rw [sumOf_cons, List.forall_mem_cons, ← ih hrest]
      by_cases hgiven : owner.has db p = true ∧ p.status = .FAILED
      · simp only [hgiven.1, hgiven.2, beq_self_eq_true, Bool.and_true, if_true]
        constructor
        · intro hsum; omega
        · exact fun hboth => absurd rfl (hboth.1 trivial)
      · have hskip : (p.status == .FAILED && owner.has db p) = false := by
          by_contra hc
          simp only [Bool.not_eq_false, Bool.and_eq_true, beq_iff_eq] at hc
          exact hgiven ⟨hc.2, hc.1⟩
        rw [hskip, if_neg Bool.false_ne_true, zero_add]
        exact ⟨fun hsum => ⟨fun hhas hfailed => hgiven ⟨hhas, hfailed⟩, hsum⟩, And.right⟩
  exact hzero _ fun p hp => (h p hp).1

/-- **Pending is owed exactly if nothing is given up.** -/
theorem pending_iff (hsane : Sane db) (hstand : Standing db)
    (hshared : ∀ entertainerId, Shared entertainerId db) (hknown : owner.Known db) :
    PendingIsOwed owner db ↔ NoneGivenUp owner db := by
  have hbalance : ∀ creditsFirst, getBalance creditsFirst owner.type (some owner.id) db =
      sumBy owner (· != .SUCCESS) db := balance_not_paid hsane
  have hnot : sumBy owner (· != .SUCCESS) db =
      sumBy owner OPEN_PAYOUT_STATUSES.contains db + sumBy owner (· == .FAILED) db := not_paid hstand
  rw [← givenUp_zero hstand]
  cases owner with
  | entertainer id =>
    obtain ⟨entertainer, hfound⟩ := hknown
    -- what the overview shows, whether there is an account or not
    have hshown : ∀ now, ∃ o, entertainerOverview id now db = .ok o ∧
        o.pendingPayoutsKobo = sumBy (.entertainer id) OPEN_PAYOUT_STATUSES.contains db ∧
        o.paidOutKobo = sumBy (.entertainer id) (· == .SUCCESS) db := by
      intro now
      unfold entertainerOverview
      simp only [hfound]
      rcases hfind : db.ledgerAccounts.find (isAccount .ENTERTAINER_PAYABLE (some id)) with _ | account
      · have hnone : ∀ p, (Owner.entertainer id).has db p = false := has_none hfind
        refine ⟨_, rfl, ?_, ?_⟩ <;> exact (sumOf_eq_zero fun p _ => by simp [hnone p]).symm
      · have hhas : ∀ p, (Owner.entertainer id).has db p = (p.ledgerAccountId == account.id) := has_account hfind
        refine ⟨_, rfl, ?_, ?_⟩ <;> exact sumOf_congr fun p _ => by simp only [hhas p, Bool.and_comm]
    have htotal : sumBy (.entertainer id) (· != .SUCCESS) db + sumBy (.entertainer id) (· == .SUCCESS) db =
        earnings id (fun _ => true) db := owedTo_split.symm.trans (hshared id _ List.prefix_rfl)
    constructor
    · intro h
      obtain ⟨o, ho, hpending, -⟩ := hshown 0
      have howed := ((h 0 o ho).1 true).trans (hbalance true)
      rw [hpending, hnot] at howed
      omega
    · intro hzero now o ho
      obtain ⟨o', ho', hpending, hpaid⟩ := hshown now
      obtain rfl : o' = o := Except.ok.inj (ho'.symm.trans ho)
      refine ⟨fun creditsFirst => ?_, ?_⟩
      · refine Eq.trans ?_ (hbalance creditsFirst).symm
        rw [hpending, hnot]
        omega
      · rw [hpending, hpaid]
        omega
  | venue id =>
    obtain ⟨venue, hfound⟩ := hknown
    have hshown : ∀ now, ∃ o, venueOverview id now db = .ok o ∧
        o.ownPendingPayoutsKobo = sumBy (.venue id) OPEN_PAYOUT_STATUSES.contains db := by
      intro now
      unfold venueOverview
      simp only [hfound]
      exact ⟨_, rfl, rfl⟩
    constructor
    · intro h
      obtain ⟨o, ho, hpending⟩ := hshown 0
      have howed := (h 0 o ho true).trans (hbalance true)
      rw [hpending, hnot] at howed
      omega
    · intro hzero now o ho creditsFirst
      obtain ⟨o', ho', hpending⟩ := hshown now
      obtain rfl : o' = o := Except.ok.inj (ho'.symm.trans ho)
      refine Eq.trans ?_ (hbalance creditsFirst).symm
      rw [hpending, hnot]
      omega

/-! ### Every state reached -/

/-- What every change keeps. -/
structure Kept (db : Db) : Prop where
  sane : Sane db
  standing : Standing db
  shared : ∀ entertainerId, Shared entertainerId db

lemma kept_step (hc : Change db db') (hs : Shelves site db db') (h : Kept db) : Kept db' :=
  ⟨change_sane hc h.sane, standing_step hc hs h.standing, fun id => shared_change h.sane.1 hc (h.shared id)⟩

lemma kept_arriving {v : Db} (he : arriving v db = some db') (h : Kept db) : Kept db' := by
  have helse := (arriving_elsewhere he).1
  obtain ⟨hk, -, -, hpay⟩ := elsewhere_keeps helse
  refine ⟨elsewhere_sane helse h.sane, fun p hp => h.standing p (hpay ▸ hp), fun id => ?_⟩
  exact shared_same h.sane.1 hk (by rw [hpay]) (fun f => successful_arriving he) (h.shared id)

lemma kept_empty (hpost : db.postings = []) (hpay : db.payouts.rows = [])
    (hopen : ∀ payment ∈ db.payments.rows, payment.status ≠ .SUCCESS) : Kept db := by
  refine ⟨sane_empty hpost hpay, by simp [Standing, hpay], fun id rules _ => ?_⟩
  have hnone : successful (counts id (fun _ => true) rules) db = 0 :=
    sumOf_eq_zero fun payment hp => by simpa using hopen payment hp
  rw [hnone, owedTo, hpay]
  rfl

lemma noneGivenUp_arriving {v : Db} (he : arriving v db = some db') (h : NoneGivenUp owner db) :
    NoneGivenUp owner db' := by
  obtain ⟨-, hacc, -, hpay⟩ := elsewhere_keeps (arriving_elsewhere he).1
  intro p hp hhas
  rw [Owner.has, onAccount, hacc] at hhas
  exact h p (hpay ▸ hp) hhas

variable {p₀ p : Pool App Operation Unit}

/-- **What the statements and the rest of the system keep, beside `Kept`**, holds throughout. -/
theorem kept_runs {C : Site → Db → Prop} {J : Db → Prop} {ok : Pool App Operation Unit → Event App Operation Db → Prop}
    (hok : ∀ p ev, ok p ev → Meets C p ev)
    (hstep : ∀ db db' site, Kept db → Change db db' → Shelves site db db' → C site db → J db → J db')
    (hmoved : ∀ v db db', arriving v db = some db' → J db → J db') (hruns : p₀.runs = [])
    (h : Reach arrivals ok p₀ p) (h₀ : Kept p₀.store ∧ J p₀.store) : Kept p.store ∧ J p.store := by
  have hentry : ∀ o db, Obeys (relyGuarantee Keeps (fun s s' => Change s s' ∧
      ∃ site, C site s ∧ Shelves site s s') C Operation) (fun _ _ => True) (arrivals.entry o) db :=
    fun o _ => obeys_each (program_shelves o) (program_sound o)
  refine (steady_keeps (G := Keeps) (J := fun db => Kept db ∧ J db) Keeps.refl (fun _ _ _ => Keeps.trans) hentry
    (fun v db x db' x' hm => (elsewhere_keeps (arriving_elsewhere (arrivals_move hm)).1).1) hok (fun db db' _ ht hJ => ?_)
    (fun v db x db' x' hm hJ => ⟨kept_arriving (arrivals_move hm) hJ.1, hmoved v db db' (arrivals_move hm) hJ.2⟩)
    (steady_start hruns) h h₀).2
  obtain ⟨hchange, site, hC, hshelves⟩ := ht
  exact ⟨kept_step hchange hshelves hJ.1, hstep db db' site hJ.1 hchange hshelves hC hJ.2⟩

/-- Wherever the allowed runs lead, what is pending is owed. -/
def AlwaysOwed (owner : Owner) (ok : Pool App Operation Unit → Event App Operation Db → Prop)
    (p₀ : Pool App Operation Unit) : Prop :=
  ∀ p, Reach arrivals ok p₀ p → owner.Known p.store → PendingIsOwed owner p.store

/-- **Pending means owed**, in every state reached in which no payout of the owner is given up; so
throughout a run that gives up none. -/
theorem pending_means_owed (owner : Owner) (hruns : p₀.runs = []) (hpost : p₀.store.postings = [])
    (hpay : p₀.store.payouts.rows = []) (hopen : ∀ payment ∈ p₀.store.payments.rows, payment.status ≠ .SUCCESS) :
    (∀ p, Reach arrivals anyEvent p₀ p → owner.Known p.store →
      (PendingIsOwed owner p.store ↔ NoneGivenUp owner p.store)) ∧
    AlwaysOwed owner (Meets (givesUpNone owner)) p₀ := by
  have hempty := kept_empty hpost hpay hopen
  have hiff : ∀ p, Reach arrivals anyEvent p₀ p → owner.Known p.store →
      (PendingIsOwed owner p.store ↔ NoneGivenUp owner p.store) := by
    intro p h hknown
    have hkept := (kept_runs (C := fun _ _ => True) (J := fun _ => True)
      (fun p ev _ => by cases ev <;> simp [Meets]) (fun _ _ _ _ _ _ _ _ => trivial) (fun _ _ _ _ _ => trivial)
      hruns h ⟨hempty, trivial⟩).1
    exact pending_iff hkept.sane hkept.standing hkept.shared hknown
  refine ⟨hiff, fun p h hknown => (hiff p h.any hknown).mpr ?_⟩
  exact (kept_runs (fun p ev hm => hm)
    (fun db db' site hkept hc hs hC hnone => noneGivenUp_step hkept.sane.1 hc hs hC hnone)
    (fun v db db' he => noneGivenUp_arriving he) hruns h ⟨hempty, by simp [NoneGivenUp, hpay]⟩).2

/-! ### A payout to a bank nobody knows -/

def strayEntertainer : Entertainer := { sampleEntertainer with bankName := some "Moniepoint", bankCode := none }

def strayDb : Db := { sampleDb with entertainers := ⟨[strayEntertainer], sampleEntertainer_keys⟩ }

theorem pending_means_owed_sample : strayDb.payments.rows ≠ [] ∧
    (∀ p, Reach arrivals anyEvent ⟨strayDb, (), []⟩ p → Owner.Known (.entertainer (uid 3)) p.store →
      (PendingIsOwed (.entertainer (uid 3)) p.store ↔ NoneGivenUp (.entertainer (uid 3)) p.store)) ∧
    AlwaysOwed (.entertainer (uid 3)) (Meets (givesUpNone (.entertainer (uid 3)))) ⟨strayDb, (), []⟩ :=
  ⟨by decide, pending_means_owed _ rfl rfl rfl (by decide)⟩

/-- The payment is settled, and a worker finds no bank code. -/
def settledAndGivenUp : List (Event App Operation Db) :=
  .start (.settle "pay_1") :: execs 0 [1] ++ asks 0 agreeable ++ execs 0 [2, 3] ++
    asks 0 agreeable ++ asks 0 agreeable ++ execs 0 [4] ++ .finish 0 ::
    .start (.processPayout (uid 3005)) :: execs 1 [5, 6, 7] ++ [.finish 1]

/-- The entertainer is owed its share, and shown nothing as pending. -/
theorem owed_not_pending : ¬ AlwaysOwed (.entertainer (uid 3)) anyEvent ⟨strayDb, (), []⟩ := by
  intro h
  obtain ⟨p, hp, hshown⟩ := (Option.any_eq_true _ _).mp
    (by decide +kernel : (run arrivals ⟨strayDb, (), []⟩ settledAndGivenUp).any
      (fun p => p.store.entertainers.find (·.id == uid 3) == some strayEntertainer &&
        (entertainerOverview (uid 3) 13 p.store).toOption.map (·.pendingPayoutsKobo) == some 0 &&
        getBalance true .ENTERTAINER_PAYABLE (some (uid 3)) p.store == 8500) = true)
  simp only [Bool.and_eq_true, beq_iff_eq, Option.map_eq_some_iff] at hshown
  obtain ⟨⟨hknown, o, ho, hpending⟩, hbalance⟩ := hshown
  have hok : entertainerOverview (uid 3) 13 p.store = .ok o := by
    rcases hresult : entertainerOverview (uid 3) 13 p.store with e | o'
    · rw [hresult] at ho; cases ho
    · rw [hresult] at ho; cases ho; rfl
  have howed := (h p (reach_of_run (along_any _) hp) ⟨strayEntertainer, hknown⟩ 13 o hok).1 true
  rw [hpending, hbalance] at howed
  exact absurd howed (by decide)

end Splitcore.Dashboard
