import Splitcore.Money.Books

/-!
The settlement and payout services at work: any number of calls side by side, crashes,
provider answers of any kind, and the rest of the system changing its own tables.

In whatever state they reach, what a payout's postings took off its account is its amount
when it is `SUCCESS` and nothing otherwise, and a payable account's balance is what is still
owed on it.
-/

namespace Splitcore.Money

open Relational Interleaving Ledger Bookkeeping

inductive Operation where
  | settle (reference : String)
  | processPayout (payoutId : Uuid)
  | handleTransferEvent (reference : String) (outcome : TransferOutcome) (reason : Option String)
  | retryPayout (payoutId : Uuid)
  | enqueueDuePayouts

def Operation.program : Operation → Prog App Unit
  | .settle reference => do let _ ← Money.settle reference
  | .processPayout payoutId => Money.processPayout payoutId
  | .handleTransferEvent reference outcome reason =>
    Money.handleTransferEvent reference outcome reason
  | .retryPayout payoutId => do let _ ← Money.retryPayout payoutId
  | .enqueueDuePayouts => do let _ ← Money.enqueueDuePayouts

/-- The rest of the system writes the other tables; it adds payments and rules, and does not
rewrite a payment or the terms of a rule. -/
def elsewhere (v db : Db) : Option Db :=
  if db.payments.rows <+: v.payments.rows ∧
      db.splitRules.rows.map terms <+: v.splitRules.rows.map terms then
    some { v with
      ledgerAccounts := db.ledgerAccounts, postings := db.postings, payouts := db.payouts }
  else none

def services : Outside App Operation Unit Db where
  entry := Operation.program
  start _ _ x := some x
  move v db x := (elsewhere v db).map (·, x)

variable {db db' : Db}

lemma elsewhere_keeps {v : Db} (h : elsewhere v db = some db') : Keeps db db' ∧
    db'.ledgerAccounts = db.ledgerAccounts ∧ db'.postings = db.postings ∧
    db'.payouts = db.payouts := by
  unfold elsewhere at h
  split at h
  · rename_i hpre
    cases h
    exact ⟨⟨hpre.1.map quoted, hpre.2, List.prefix_rfl, List.prefix_rfl⟩, rfl, rfl, rfl⟩
  · cases h

lemma services_move {v : Db} {x x' : Unit} (h : services.move v db x = some (db', x')) :
    elsewhere v db = some db' := by
  obtain ⟨_, helse, heq⟩ := Option.map_eq_some_iff.mp h
  cases heq
  exact helse

lemma program_sound {C : Site → Db → Prop} {L : Type} {g : Db} (o : Operation) :
    Sound C L o.program g := by
  cases o with
  | settle reference => exact sound_bind settle_sound fun _ _ => sound_ret
  | processPayout payoutId => exact processPayout_sound
  | handleTransferEvent reference outcome reason => exact handleTransferEvent_sound
  | retryPayout payoutId => exact sound_bind retryPayout_sound fun _ _ => sound_ret
  | enqueueDuePayouts => exact sound_bind enqueueDuePayouts_sound fun _ _ => sound_ret

/-- The pool keeps to the books. -/
abbrev InOrder (p : Pool App Operation Unit) : Prop := Steady Keeps Change (fun _ _ => True) p

/-- What every change keeps, and the rest of the system too, holds throughout. -/
theorem services_keep {J : Db → Prop} (hchange : ∀ db db', Change db db' → J db → J db')
    (helse : ∀ v db db', elsewhere v db = some db' → J db → J db')
    {p₀ p : Pool App Operation Unit} (h₀ : InOrder p₀) (h : Reach services anyEvent p₀ p)
    (hJ : J p₀.store) : InOrder p ∧ J p.store := by
  have hentry : ∀ o db, Obeys (books (fun _ _ => True) Operation) (fun _ _ => True)
    (services.entry o) db := fun o _ => program_sound o
  refine steady_keeps (G := Keeps) Keeps.refl (fun _ _ _ => Keeps.trans) hentry
    (fun v db x db' x' hm => (elsewhere_keeps (services_move hm)).1) (fun p ev _ => ?_)
    (fun db db' _ => hchange db db') (fun v db x db' x' hm => helse v db db' (services_move hm)) h₀ h hJ
  cases ev <;> simp [Meets]

/-! ### Foreign keys -/

lemma consistent_keeps (hc : Consistent db) (hacc : db.ledgerAccounts.rows <+: db'.ledgerAccounts.rows)
    (hpost : ∀ po ∈ db'.postings, po ∈ db.postings ∨ ∀ e ∈ po.entries,
      ∃ a ∈ db'.ledgerAccounts.rows, a.id = e.accountId)
    (hpay : ∀ p ∈ db'.payouts.rows, (∃ q ∈ db.payouts.rows, q.ledgerAccountId = p.ledgerAccountId) ∨
      ∃ a ∈ db'.ledgerAccounts.rows, a.id = p.ledgerAccountId ∧ isPayable a.type = true) :
    Consistent db' := by
  refine ⟨fun po hpo e he => ?_, fun p hp => ?_⟩
  · rcases hpost po hpo with h | h
    · obtain ⟨a, ha, hid⟩ := hc.entries po h e he
      exact ⟨a, hacc.subset ha, hid⟩
    · exact h e he
  · rcases hpay p hp with ⟨q, hq, hqp⟩ | h
    · obtain ⟨a, ha, hid, hpay⟩ := hc.payouts q hq
      exact ⟨a, hacc.subset ha, hid.trans hqp, hpay⟩
    · exact h

/-- An update of payouts leaves their accounts. -/
lemma accounts_of_update {t t' : Table Payout} {guard : Payout → Bool} {update : Payout → Payout}
    (hkeeps : ∀ p, obligation (update p) = obligation p) (h : t.update guard update = some t')
    {p : Payout} (hp : p ∈ t'.rows) : ∃ q ∈ t.rows, q.ledgerAccountId = p.ledgerAccountId := by
  have hmem := List.mem_map_of_mem (f := obligation) hp
  rw [Table.map_update hkeeps h, List.mem_map] at hmem
  obtain ⟨q, hq, hob⟩ := hmem
  exact ⟨q, hq, congrArg Obligation.ledgerAccountId hob⟩

lemma change_consistent (h : Change db db') (hc : Consistent db) : Consistent db' := by
  cases h with
  | same => exact hc
  | payments => exact ⟨hc.entries, hc.payouts⟩
  | created => exact ⟨hc.entries, hc.payouts⟩
  | payouts guard update t ht hkeeps =>
    exact consistent_keeps hc List.prefix_rfl (fun po hpo => .inl hpo) fun p hp =>
      .inl (accounts_of_update hkeeps ht hp)
  | settled s =>
    have hpostings := congrArg Db.postings s.after
    have hpayouts : db'.payouts = s.payouts' := congrArg Db.payouts s.after
    refine consistent_keeps hc (Change.settled s).keeps.ledgerAccounts (fun po hpo => ?_)
      fun p hp => ?_
    · rw [hpostings, List.mem_append, List.mem_singleton] at hpo
      rcases hpo with hpo | rfl
      · exact .inl hpo
      · refine .inr fun e he => ?_
        obtain ⟨spec, -, hw⟩ := exists_of_forall₂ s.written he
        exact ⟨_, hw.2.2.2, rfl⟩
    · rw [hpayouts, s.payouts_rows, List.mem_append] at hp
      rcases hp with hp | hp
      · exact .inl ⟨p, hp, rfl⟩
      · obtain ⟨spec, hspec, ho⟩ := exists_of_forall₂ s.owed (List.mem_map_of_mem hp)
        have hob := (List.mem_filter.mp hspec).2
        simp only [isObligation, Bool.and_eq_true] at hob
        exact .inr ⟨_, ho.2.2, rfl, hob.2⟩
  | moved back m =>
    have hpostings := congrArg Db.postings m.after
    have hpayouts : db'.payouts = m.payouts' := congrArg Db.payouts m.after
    refine consistent_keeps hc (Change.moved back m).keeps.ledgerAccounts (fun po hpo => ?_)
      fun p hp => ?_
    · rw [hpostings, List.mem_append, List.mem_singleton] at hpo
      rcases hpo with hpo | rfl
      · exact .inl hpo
      · refine .inr fun e he => ?_
        obtain ⟨spec, -, hw⟩ := exists_of_forall₂ m.written he
        exact ⟨_, hw.2.2.2, rfl⟩
    · rw [hpayouts] at hp
      exact .inl (accounts_of_update m.keeps m.updated hp)

/-! ### Balances -/

/-- Debits less credits that payout and reversal postings made on an account for a payment. -/
def payoutNet (db : Db) (accountId transactionId : Uuid) : ℤ :=
  ((((db.postings.filter fun po => po.origin ≠ .settlement).flatMap (·.entries)).filter fun e =>
    e.accountId = accountId ∧ e.transactionId = transactionId).map signedDebit).sum

def entriesOf (db : Db) (accountId : Uuid) : List (LedgerDirection × ℤ) :=
  (db.ledgerEntries.filter (·.accountId = accountId)).map fun e => (e.direction, e.amountKobo)

/-- What is still owed on an account. -/
def owedOn (db : Db) (accountId : Uuid) : ℤ :=
  ((db.payouts.rows.filter fun p => p.ledgerAccountId = accountId ∧ p.status ≠ .SUCCESS).map
    (·.amountKobo)).sum

/-- The books are sound. -/
def Sane (db : Db) : Prop := Consistent db ∧ (book db).Sound

lemma sane_empty (hpost : db.postings = []) (hpay : db.payouts.rows = []) : Sane db := by
  refine ⟨⟨by simp [hpost], by simp [hpay]⟩, ?_⟩
  simpa [book, hpost, hpay] using Book.sound_empty

lemma change_sane (h : Change db db') (hs : Sane db) : Sane db' :=
  ⟨change_consistent h hs.1, (change_step hs.1 h).sound hs.2⟩

lemma elsewhere_sane {v : Db} (h : elsewhere v db = some db') (hs : Sane db) : Sane db' := by
  obtain ⟨-, hacc, hpost, hpay⟩ := elsewhere_keeps h
  refine ⟨⟨by rw [hacc, hpost]; exact hs.1.entries, by rw [hacc, hpay]; exact hs.1.payouts⟩, ?_⟩
  have : book db' = book db := by simp [book, hacc, hpost, hpay]
  rw [this]; exact hs.2

lemma sumOf_flatMap {α β : Type} {f : α → List β} {p : β → Bool} {g : β → ℤ} {l : List α} :
    sumOf p g (l.flatMap f) = (l.map fun x => sumOf p g (f x)).sum := by
  induction l with
  | nil => rfl
  | cons x l ih => simp [ih]

/-- On a payable account the book has every line of the ledger. -/
lemma net_eq {account : LedgerAccount} (ha : account ∈ db.ledgerAccounts.rows)
    (hpay : isPayable account.type = true) (transactionId : Uuid) :
    (book db).net account.id transactionId = payoutNet db account.id transactionId := by
  have hpayable : isPayableId db.ledgerAccounts account.id = true := by
    rw [isPayableId_of_mem ha]; exact hpay
  simp only [Book.net, book, payoutNet, sumOf_filter]
  induction db.postings with
  | nil => rfl
  | cons po pos ih =>
    rw [List.flatMap_cons, sumOf_append, ih]
    by_cases ho : po.origin = .settlement
    · rw [List.filter_cons_of_neg (by simp [ho]), add_eq_right]
      refine sumOf_eq_zero fun e he => ?_
      obtain ⟨x, -, rfl⟩ := List.mem_map.mp he
      simp [entryLine, ho]
    · rw [List.filter_cons_of_pos (by simp [ho]), List.flatMap_cons, sumOf_append, add_left_inj]
      rw [postingLines, sumOf_map, ← sumOf_filter, ← sumOf_filter, List.filter_filter]
      congr 2
      · refine List.filter_congr fun e _ => ?_
        by_cases he : e.accountId = account.id
        · simp [entryLine, he, hpayable, ho]
        · simp [entryLine, he]

lemma balance_eq {account : LedgerAccount} (ha : account ∈ db.ledgerAccounts.rows)
    (hpay : isPayable account.type = true) :
    (book db).balance account.id = balanceOf account.type (entriesOf db account.id) := by
  have hpayable : isPayableId db.ledgerAccounts account.id = true := by
    rw [isPayableId_of_mem ha]; exact hpay
  rw [balanceOf_payable hpay, Book.balance, neg_inj, entriesOf, Db.ledgerEntries, book, List.map_map]
  simp only
  induction db.postings with
  | nil => rfl
  | cons po pos ih =>
    rw [List.flatMap_cons, sumOf_append, ih, List.flatMap_cons, List.filter_append, List.map_append,
      List.sum_append, add_left_inj, postingLines, sumOf_map, ← sumOf_filter, List.filter_filter]
    congr 2
    refine List.filter_congr fun e _ => ?_
    by_cases he : e.accountId = account.id
    · simp [entryLine, he, hpayable]
    · simp [entryLine, he]

/-- A database the services made, starting from an empty ledger. -/
def Arises (db : Db) : Prop := ∃ p₀ p : Pool App Operation Unit, p₀.runs = [] ∧
  p₀.store.postings = [] ∧ p₀.store.payouts.rows = [] ∧ Reach services anyEvent p₀ p ∧ p.store = db

lemma Arises.sane (h : Arises db) : Sane db := by
  obtain ⟨p₀, p, hruns, hpost, hpay, h, rfl⟩ := h
  exact (services_keep (fun _ _ => change_sane) (fun _ _ _ => elsewhere_sane) (steady_start hruns) h
    (sane_empty hpost hpay)).2

/-- The postings of a payout took its amount off its account exactly if it is `SUCCESS`. -/
lemma Sane.payoutNet_eq (h : Sane db) {payout : Payout} (hp : payout ∈ db.payouts.rows) :
    payoutNet db payout.ledgerAccountId payout.transactionId =
      if payout.status = .SUCCESS then payout.amountKobo else 0 := by
  obtain ⟨a, ha, hid, hpay⟩ := h.1.payouts payout hp
  have hnet := h.2.net (liability payout) (List.mem_map_of_mem hp)
  simp only [liability] at hnet
  rw [← hid, net_eq ha hpay, hid] at hnet
  rw [hnet]
  simp

/-- The balance of a payable account is what is still owed on it. -/
lemma Sane.balanceOf_eq (h : Sane db) {account : LedgerAccount} (ha : account ∈ db.ledgerAccounts.rows)
    (hpay : isPayable account.type = true) :
    balanceOf account.type (entriesOf db account.id) = owedOn db account.id := by
  rw [← balance_eq ha hpay, h.2.balance_eq, owedOn, sumOf_filter, book, sumOf_map]
  exact sumOf_congr fun p _ => by
    by_cases hp : p.ledgerAccountId = account.id <;> by_cases hs : p.status = .SUCCESS <;>
      simp [liability, hp, hs]

/-- **The ledger neither loses nor invents a liability.** In every state reached from an empty
ledger, the postings of a payout took exactly its amount off its account if it is `SUCCESS`
and nothing otherwise; and the balance of a payable account is the sum of its payouts that
are not `SUCCESS`, never negative. -/
theorem liabilities_kept {p₀ p : Pool App Operation Unit} (hruns : p₀.runs = [])
    (hpost : p₀.store.postings = []) (hpay : p₀.store.payouts.rows = [])
    (h : Reach services anyEvent p₀ p) :
    (∀ payout ∈ p.store.payouts.rows,
      payoutNet p.store payout.ledgerAccountId payout.transactionId =
        if payout.status = .SUCCESS then payout.amountKobo else 0) ∧
    ∀ account ∈ p.store.ledgerAccounts.rows, isPayable account.type = true →
      balanceOf account.type (entriesOf p.store account.id) = owedOn p.store account.id ∧
      0 ≤ balanceOf account.type (entriesOf p.store account.id) := by
  have hsane : Sane p.store := Arises.sane ⟨p₀, p, hruns, hpost, hpay, h, rfl⟩
  refine ⟨fun payout hp => hsane.payoutNet_eq hp, fun account ha hpay => ⟨hsane.balanceOf_eq ha hpay, ?_⟩⟩
  rw [← balance_eq ha hpay]
  exact hsane.2.balance_nonneg _

/-! ### A run: one payment settled, one of its two payouts delivered -/

def uid (n : ℕ) : Uuid := ⟨BitVec.ofNat 128 n⟩

/-- Time `k`, and identifiers nobody else draws. -/
def inputAt (k : ℕ) : Input := ⟨k, fun n => uid (1000 * k + n), "nanoid", "token", fun _ => 0⟩

def samplePayment : PaymentTransaction :=
  { id := uid 1, externalReference := "pay_1", provider := "paystack", venueId := uid 2
    entertainerId := some (uid 3), guestSessionId := uid 4, grossAmountKobo := 10000
    guestDisplayName := none, displayNameEnabled := false, splitRuleId := some (uid 5)
    status := .CREATED, createdAt := 0, updatedAt := 0 }

def sampleRule : SplitRule :=
  { id := uid 5, venueId := uid 2, entertainerBps := 8500, venueBps := 1000, platformBps := 500
    effectiveFrom := some 0, effectiveTo := none, status := .ACTIVE, origin := .ADMIN_OVERRIDE
    entertainerId := none, proposedByUserId := none, proposedAt := 0, respondedAt := none
    responseTokenHash := none }

def sampleEntertainer : Entertainer :=
  { id := uid 3, stageName := "Ada", legalName := "Ada Obi", phone := "0800"
    bankName := some "GTBank", accountNumber := some "0123456789", kycStatus := .VERIFIED
    isActive := true, bankCode := some "058", resolvedAccountName := some "ADA OBI"
    accountResolvedAt := some 0, accountConfirmedAt := some 0, kycSubmittedAt := some 0
    kycVerifiedAt := some 0, kycFailureReason := none, identityCheckType := some "BVN"
    identityCheckedAt := some 0 }

lemma sampleRule_keys : ([sampleRule].flatMap Indexed.keys).Nodup := by decide

lemma sampleEntertainer_keys : ([sampleEntertainer].flatMap Indexed.keys).Nodup := by decide

def sampleDb : Db :=
  { payments := ⟨[samplePayment], by decide⟩
    splitRules := ⟨[sampleRule], sampleRule_keys⟩
    entertainers := ⟨[sampleEntertainer], sampleEntertainer_keys⟩ }

def samplePayout : Payout :=
  { id := uid 11, ledgerAccountId := uid 10, transactionId := uid 1, transferReference := none
    recipientCode := none, amountKobo := 8500, status := .QUEUED, attempts := 0, attemptedAt := none
    completedAt := none, failureReason := none, updatedAt := 0 }

def payoutDb : Db :=
  { ledgerAccounts := ⟨[⟨uid 10, .ENTERTAINER_PAYABLE, some (uid 3)⟩], by decide⟩
    payouts := ⟨[samplePayout], by decide⟩
    entertainers := ⟨[sampleEntertainer], sampleEntertainer_keys⟩ }

lemma payoutDb_untried : ∀ payout ∈ payoutDb.payouts.rows, Untried payout := by
  intro payout hp
  obtain rfl := List.mem_singleton.mp hp
  exact ⟨rfl, rfl, rfl, by decide⟩

/-- Providers that agree to everything. -/
def agreeable : (q : Ask) → Except Err (Ans q)
  | .verifyPayment _ => .ok ⟨.success, 10000, some "NGN"⟩
  | .initializePayment _ => .ok ⟨"https://checkout", "code"⟩
  | .verifyTransfer _ => .ok .success
  | .createRecipient _ => .ok "RCP_1"
  | .initiateTransfer _ => .ok ⟨.success, none⟩
  | .addPayoutJob _ _ => .ok ()
  | .listBanks => .ok [⟨"GTBank", "058"⟩]
  | .resolveAccount accountNumber bankCode => .ok ⟨accountNumber, bankCode, "ADA OBI"⟩
  | .verifyIdentity _ => .ok ⟨.verified, none⟩
  | .signAsync _ _ => .ok "jwt"

section Run

variable {L V : Type}

/-- Run `i` executes its next statements, at the times given. -/
def execs (i : ℕ) (times : List ℕ) : List (Event App L V) := times.map fun k => .exec i (inputAt k)

/-- Run `i` asks, and is answered. -/
def asks (i : ℕ) (o : (q : Ask) → Except Err (Ans q)) : List (Event App L V) := [.send i, .answer i o]

end Run

def settledAndPaid : List (Event App Operation Db) :=
  .start (.settle "pay_1") :: execs 0 [1] ++ asks 0 agreeable ++ execs 0 [2, 3] ++
    asks 0 agreeable ++ asks 0 agreeable ++ execs 0 [4] ++ .finish 0 ::
    .start (.processPayout (uid 3005)) :: execs 1 [5, 6, 7] ++ asks 1 agreeable ++ execs 1 [8] ++
    asks 1 agreeable ++ execs 1 [9, 10] ++ [.finish 1]

theorem liabilities_kept_sample : ∃ p, run services ⟨sampleDb, (), []⟩ settledAndPaid = some p ∧
    (∀ payout ∈ p.store.payouts.rows,
      payoutNet p.store payout.ledgerAccountId payout.transactionId =
        if payout.status = .SUCCESS then payout.amountKobo else 0) ∧
    ∀ account ∈ p.store.ledgerAccounts.rows, isPayable account.type = true →
      balanceOf account.type (entriesOf p.store account.id) = owedOn p.store account.id ∧
      0 ≤ balanceOf account.type (entriesOf p.store account.id) := by
  obtain ⟨p, hp⟩ := Option.isSome_iff_exists.mp
    (by decide +kernel : (run services ⟨sampleDb, (), []⟩ settledAndPaid).isSome = true)
  exact ⟨p, hp, liabilities_kept rfl rfl rfl (reach_of_run (along_any _) hp)⟩

end Splitcore.Money
