import Splitcore.Ledger.Balances
import Splitcore.Money.Services
import Splitcore.Relational.Sums

/-!
Figures of the ledger, and how a posting changes them.

A figure is a sum over the entries on some accounts. Accounts are added and never change, so a figure
changes by what is posted, line by line; and the sums over settled payments and delivered payouts change
with it.
-/

namespace Splitcore.Money

open Relational Ledger Bookkeeping

/-! ### Figures -/

/-- Some accounts, by their type and owner. -/
abbrev Kind := LedgerAccountType → Option Uuid → Bool

/-- What an entry counts for: by its payment, its direction and its amount. -/
abbrev Weight := Uuid → LedgerDirection → ℤ → ℤ

def Kind.has (q : Kind) (a : LedgerAccount) : Bool := q a.type a.ownerId

def Weight.entry (w : Weight) (e : LedgerEntry) : ℤ := w e.transactionId e.direction e.amountKobo

def Weight.spec (w : Weight) (transactionId : Uuid) (s : LedgerEntrySpec) : ℤ :=
  w transactionId s.direction s.amountKobo

def figure (q : Kind) (w : Weight) (db : Db) : ℤ :=
  sumOf (isOn db.ledgerAccounts q.has) w.entry db.ledgerEntries

/-- What lines add to the figure. -/
def lines (q : Kind) (w : Weight) (transactionId : Uuid) (specs : List LedgerEntrySpec) : ℤ :=
  sumOf (fun s => q s.accountType s.ownerId) (w.spec transactionId) specs

variable {db db' : Db} {t t' : Table LedgerAccount} {q : Kind} {w w' : Weight} {id : Uuid}
  {specs : List LedgerEntrySpec} {po : Posting}

lemma isOn_of_mem {a : LedgerAccount} {e : LedgerEntry} (ha : a ∈ t.rows) (hid : a.id = e.accountId)
    (cond : LedgerAccount → Bool) : isOn t cond e = cond a := by
  rw [Bool.eq_iff_iff, isOn, List.any_eq_true]
  constructor
  · rintro ⟨a', ha', h⟩
    simp only [Bool.and_eq_true, beq_iff_eq] at h
    rw [← eq_of_account_id ha' ha (h.1.trans hid.symm)]
    exact h.2
  · exact fun h => ⟨a, ha, by simp [h, hid]⟩

/-- Accounts that are added have none of the entries that are there. -/
lemma isOn_mono (hpre : t.rows <+: t'.rows) {e : LedgerEntry} (h : ∃ a ∈ t.rows, a.id = e.accountId)
    (cond : LedgerAccount → Bool) : isOn t' cond e = isOn t cond e := by
  obtain ⟨a, ha, hid⟩ := h
  rw [isOn_of_mem ha hid, isOn_of_mem (hpre.subset ha) hid]

lemma figure_congr (hc : Consistent db) (hpre : db.ledgerAccounts.rows <+: t.rows)
    (hweight : ∀ po ∈ db.postings, ∀ e ∈ po.entries, w'.entry e = w.entry e) :
    sumOf (isOn t q.has) w'.entry db.ledgerEntries = figure q w db := by
  refine sumOf_congr fun e he => ?_
  obtain ⟨po, hpo, hepo⟩ := List.mem_flatMap.mp he
  rw [isOn_mono hpre (hc.entries po hpo e hepo), hweight po hpo e hepo]

/-- Nothing was posted. -/
lemma figure_same (hc : Consistent db) (hpre : db.ledgerAccounts.rows <+: db'.ledgerAccounts.rows)
    (hpost : db'.postings = db.postings)
    (hweight : ∀ po ∈ db.postings, ∀ e ∈ po.entries, w'.entry e = w.entry e) :
    figure q w' db' = figure q w db := by
  rw [figure, Db.ledgerEntries, hpost]
  exact figure_congr hc hpre hweight

/-- **A posting adds its lines to a figure.** -/
theorem figure_posted (hc : Consistent db) (hpre : db.ledgerAccounts.rows <+: db'.ledgerAccounts.rows)
    (hpost : db'.postings = db.postings ++ [po]) (hw : List.Forall₂ (Writes db' id) specs po.entries)
    (hweight : ∀ po ∈ db.postings, ∀ e ∈ po.entries, w'.entry e = w.entry e) :
    figure q w' db' = figure q w db + lines q w' id specs := by
  have hlines : sumOf (isOn db'.ledgerAccounts q.has) w'.entry po.entries = lines q w' id specs := by
    generalize po.entries = es at hw
    induction hw with
    | nil => rfl
    | @cons spec e specs es hse _ ih =>
      obtain ⟨htx, hdir, hamount, hmem⟩ := hse
      have hon : isOn db'.ledgerAccounts q.has e = q spec.accountType spec.ownerId :=
        isOn_of_mem hmem rfl _
      rw [lines, sumOf_cons, sumOf_cons, ih, hon, lines, Weight.entry, Weight.spec, htx, hdir, hamount]
  rw [figure, Db.ledgerEntries, hpost, List.flatMap_append, List.flatMap_singleton, sumOf_append, hlines]
  exact congrArg (· + lines q w' id specs) (figure_congr hc hpre hweight)

/-! ### Settled payments, delivered payouts -/

/-- The sum over the payments that are `SUCCESS`. -/
def successful (f : PaymentTransaction → ℤ) (db : Db) : ℤ := sumOf (·.status == .SUCCESS) f db.payments.rows

/-- The sum of the payouts that are `SUCCESS`. -/
def delivered (db : Db) : ℤ := sumOf (·.status == .SUCCESS) (·.amountKobo) db.payouts.rows

/-- What says the same of a payment throughout. -/
def Steadfast (f : PaymentTransaction → ℤ) : Prop := ∀ p p', quoted p = quoted p' → f p = f p'

variable {f : PaymentTransaction → ℤ}

lemma successful_settled (hf : Steadfast f) (s : Settled db db') :
    successful f db' = successful f db + f s.payment := by
  have hnamed : Table.Names (fun p : PaymentTransaction =>
      p.id == s.payment.id && SETTLEABLE.contains p.status) (.id s.payment.id) := fun p hp => by
    simp only [Bool.and_eq_true, beq_iff_eq] at hp
    simp [Indexed.keys, hp.1]
  have hopen : s.payment.status ≠ .SUCCESS := fun hc => by
    have := s.open_
    rw [hc] at this
    exact absurd this (by decide)
  rw [successful, congrArg Db.payments s.after, Table.sumOf_update_one hnamed s.payment_mem
    (by simp only [beq_self_eq_true, Bool.true_and]; exact s.open_) s.claimed]
  have hsame : f { s.payment with status := .SUCCESS, updatedAt := s.now } = f s.payment := hf _ _ rfl
  simp [hopen, hsame, successful]

lemma successful_moved {back : Bool} (m : Moved back db db') : successful f db' = successful f db := by
  rw [successful, congrArg Db.payments m.after, successful]

/-- New payouts are untried. -/
lemma delivered_settled (s : Settled db db') : delivered db' = delivered db := by
  have hnew : sumOf (fun p : Payout => p.status == .SUCCESS) (·.amountKobo) s.payouts = 0 :=
    sumOf_eq_zero fun p hp => by simp [(s.untried p hp).status]
  rw [delivered, congrArg Db.payouts s.after, s.payouts_rows, sumOf_append, hnew, add_zero, delivered]

lemma delivered_moved {back : Bool} (m : Moved back db db') :
    delivered db' = delivered db + if back then -m.payout.amountKobo else m.payout.amountKobo := by
  have hamount : (m.update m.payout).amountKobo = m.payout.amountKobo :=
    congrArg Obligation.amountKobo (m.keeps m.payout)
  rw [delivered, congrArg Db.payouts m.after,
    Table.sumOf_update_one m.named m.payout_mem m.guarded m.updated, hamount]
  have hstatus := m.status
  have hstatus' := m.status'
  cases back <;> simp_all [delivered, sub_eq_add_neg]

/-- **A change posts, or leaves what is settled and delivered as it is.** -/
theorem quiet_or_posts (hc : Change db db') :
    (db'.postings = db.postings ∧ (∀ f, successful f db' = successful f db) ∧ delivered db' = delivered db) ∨
    Nonempty (Settled db db') ∨ ∃ back, Nonempty (Moved back db db') := by
  cases hc with
  | same => exact .inl ⟨rfl, fun _ => rfl, rfl⟩
  | payments guard update t ht hkeeps hstatus hstatus' =>
    refine .inl ⟨rfl, fun f => Table.sumOf_update (fun p hp hguard => ?_) ht, rfl⟩
    rw [if_neg (by simpa using hstatus' p), if_neg (by simpa using hstatus p hp hguard)]
  | created p t ht hstatus =>
    refine .inl ⟨rfl, fun f => (Table.sumOf_insert ht).trans ?_, rfl⟩
    rw [if_neg (by simpa using hstatus), add_zero]
    rfl
  | payouts guard update t ht hkeeps hstatus =>
    refine .inl ⟨rfl, fun _ => rfl, Table.sumOf_update (fun p hp hguard => ?_) ht⟩
    have hamount : (update p).amountKobo = p.amountKobo := congrArg Obligation.amountKobo (hkeeps p)
    have hsame := hstatus p hguard
    by_cases hp' : p.status = .SUCCESS <;> simp_all
  | settled s => exact .inr (.inl ⟨s⟩)
  | moved back m => exact .inr (.inr ⟨back, ⟨m⟩⟩)

end Splitcore.Money
