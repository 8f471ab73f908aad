import Splitcore.Money.Guarantees

/-!
When the settlement transaction commits: the identifiers it draws are new, and none of the payouts it
is to create is stored.
-/

namespace Splitcore.Money

open Relational Ledger

/-- No payout of the payment is stored on the account of the line. -/
def Free (transactionId : Uuid) (spec : LedgerEntrySpec) (db : Db) : Prop :=
  ∀ a ∈ db.ledgerAccounts.rows, isAccount spec.accountType spec.ownerId a = true →
    ∀ p ∈ db.payouts.rows, ¬(p.ledgerAccountId = a.id ∧ p.transactionId = transactionId)

/-- Of the first `n` identifiers those that are still to be drawn are new. -/
structure Unused (w : Input) (n : ℕ) (σ : Db × ℕ) : Prop where
  distinct : ∀ i < n, ∀ j < n, w.uuid i = w.uuid j → i = j
  accounts : ∀ i < n, σ.2 ≤ i → ∀ a ∈ σ.1.ledgerAccounts.rows, a.id ≠ w.uuid i
  payouts : ∀ i < n, σ.2 ≤ i → ∀ p ∈ σ.1.payouts.rows, p.id ≠ w.uuid i ∧ p.ledgerAccountId ≠ w.uuid i

variable {w : Input} {σ σ' : Db × ℕ} {s s' : Db} {n : ℕ} {txId account paymentId : Uuid}
  {type : LedgerAccountType} {owner : Option Uuid} {spec : LedgerEntrySpec} {specs : List LedgerEntrySpec}

/-! ### Accounts -/

/-- The account is there, or is created under an identifier that is new. -/
lemma insertAccount_commits (type : LedgerAccountType) (owner : Option Uuid) (h : Unused w n σ) (hn : σ.2 < n) :
    ∃ t : Table LedgerAccount,
    insertAccount type owner w σ = .ok ((), { σ.1 with ledgerAccounts := t }, σ.2 + 1) ∧
    (∀ a ∈ t.rows, a ∈ σ.1.ledgerAccounts.rows ∨ a = ⟨w.uuid σ.2, type, owner⟩) ∧
    ∃ a, t.find (isAccount type owner) = some a := by
  rcases hfind : σ.1.ledgerAccounts.find (isAccount type owner) with _ | a
  · have hfresh : ∀ r ∈ σ.1.ledgerAccounts.rows, ∀ k ∈ Indexed.keys r,
        k ∉ Indexed.keys (⟨w.uuid σ.2, type, owner⟩ : LedgerAccount) := by
      intro r hr k hk
      have hid := h.accounts σ.2 hn le_rfl r hr
      have hnot := Table.find_eq_none.mp hfind r hr
      simp only [Indexed.keys, List.mem_cons, List.not_mem_nil, or_false] at hk ⊢
      rcases hk with rfl | rfl
      · simpa using hid
      · simpa [isAccount] using hnot
    obtain ⟨t, ht⟩ := Table.insert_of_fresh (by simp [Indexed.keys]) hfresh
    refine ⟨t, ?_, fun a ha => ?_, ⟨w.uuid σ.2, type, owner⟩, ?_⟩
    · simp only [insertAccount, Tx.bind_ok, Tx.freshId_ok, Model.findFirst_ok]
      refine ⟨_, (σ.1, σ.2 + 1), ⟨rfl, rfl⟩, none, _, ⟨hfind, rfl⟩, ?_⟩
      simp only [Option.isNone_none, if_true, Model.create, Tx.write_ok, Model.ledgerAccount, ht, Option.map_some,
        and_self]
    · rw [Table.rows_insert ht] at ha
      simpa using ha
    · rw [Table.find_eq_some names_account, Table.rows_insert ht]
      simp [isAccount]
  · refine ⟨σ.1.ledgerAccounts, ?_, fun a ha => .inl ha, a, hfind⟩
    simp only [insertAccount, Tx.bind_ok, Tx.freshId_ok, Model.findFirst_ok]
    exact ⟨_, (σ.1, σ.2 + 1), ⟨rfl, rfl⟩, some a, _, ⟨hfind, rfl⟩, by simp⟩

/-- What is left to be drawn stays new, and what was free stays free. -/
lemma resolveAccountId_commits (type : LedgerAccountType) (owner : Option Uuid) (h : Unused w n σ)
    (hn : σ.2 < n) : ∃ id σ',
    resolveAccountId type owner w σ = .ok (id, σ') ∧ σ'.2 = σ.2 + 1 ∧ Unused w n σ' ∧
    σ'.1.payouts = σ.1.payouts ∧ ∀ tx spec, Free tx spec σ.1 → Free tx spec σ'.1 := by
  obtain ⟨t, hins, hrows, a, hfind⟩ := insertAccount_commits type owner h hn
  refine ⟨a.id, ({ σ.1 with ledgerAccounts := t }, σ.2 + 1), ?_, rfl, ⟨h.distinct, ?_, ?_⟩, rfl, ?_⟩
  · simp only [resolveAccountId, Tx.bind_ok, Model.findFirst_ok]
    exact ⟨(), _, hins, some a, _, ⟨hfind, rfl⟩, rfl⟩
  · intro i hi hle b hb
    rcases hrows b hb with hb | rfl
    · exact h.accounts i hi (by omega) b hb
    · intro heq
      have := h.distinct σ.2 hn i hi heq
      omega
  · exact fun i hi hle => h.payouts i hi (by omega)
  · intro tx spec hfree b hb hspec p hp hboth
    rcases hrows b hb with hb | rfl
    · exact hfree b hb hspec p hp hboth
    · exact (h.payouts σ.2 hn le_rfl p hp).2 hboth.1

lemma accountIds_commits (ids : AccountIds) (h : Unused w n σ) (hn : σ.2 + specs.length ≤ n) : ∃ ids' σ',
    accountIds specs ids w σ = .ok (ids', σ') ∧ σ'.2 ≤ σ.2 + specs.length ∧ Unused w n σ' ∧
    ∀ tx spec, Free tx spec σ.1 → Free tx spec σ'.1 := by
  induction specs generalizing ids σ with
  | nil => exact ⟨ids, σ, rfl, le_rfl, h, fun _ _ hfree => hfree⟩
  | cons spec specs ih =>
    rw [List.length_cons] at hn ⊢
    unfold accountIds
    split
    · obtain ⟨ids', σ', hrun, hle, hunused, hfree⟩ := ih ids h (by omega)
      exact ⟨ids', σ', hrun, by omega, hunused, hfree⟩
    · obtain ⟨id, σ₁, hres, hdrawn, h₁, -, hfree₁⟩ :=
        resolveAccountId_commits spec.accountType spec.ownerId h (by omega)
      obtain ⟨ids', σ', hrun, hle, hunused, hfree⟩ := ih _ h₁ (by omega)
      refine ⟨ids', σ', Tx.bind_ok.mpr ⟨id, σ₁, hres, hrun⟩, by omega, hunused, fun tx spec hs => ?_⟩
      exact hfree tx spec (hfree₁ tx spec hs)

lemma post_commits (origin : Origin) (txId : Uuid) (h : Unused w n σ) (hn : σ.2 + specs.length ≤ n)
    (hbalanced : assertBalanced specs = .ok ()) : ∃ σ', post origin txId specs w σ = .ok ((), σ') ∧
      σ'.2 ≤ σ.2 + specs.length ∧ Unused w n σ' ∧ ∀ tx spec, Free tx spec σ.1 → Free tx spec σ'.1 := by
  obtain ⟨ids, σ₁, hrun, hle, hunused, hfree⟩ := accountIds_commits [] h hn
  refine ⟨({ σ₁.1 with postings := σ₁.1.postings ++ [⟨origin, txId, specs.map (row txId ids w.now)⟩] }, σ₁.2),
    ?_, hle, ⟨hunused.distinct, hunused.accounts, hunused.payouts⟩, hfree⟩
  simp only [post, Tx.bind_ok, Tx.liftExcept_ok, Tx.now_ok, Tx.write_ok]
  exact ⟨(), σ, ⟨hbalanced, rfl⟩, ids, σ₁, hrun, _, σ₁, ⟨rfl, rfl⟩, rfl, rfl⟩

/-! ### Payouts -/

lemma createPayout_commits {amount : ℤ} (h : Unused w n σ) (hn : σ.2 < n) (hpos : 0 < amount)
    (hmem : ⟨account, type, owner⟩ ∈ σ.1.ledgerAccounts.rows)
    (hfree : ∀ p ∈ σ.1.payouts.rows, ¬(p.ledgerAccountId = account ∧ p.transactionId = txId)) :
    ∃ σ', createPayout account txId amount w σ = .ok (w.uuid σ.2, σ') ∧ σ'.2 = σ.2 + 1 ∧ Unused w n σ' ∧
      ∀ spec, Free txId spec σ.1 → (type, owner) ≠ (spec.accountType, spec.ownerId) → Free txId spec σ'.1 := by
  let payout : Payout :=
    { id := w.uuid σ.2, ledgerAccountId := account, transactionId := txId, amountKobo := amount
      transferReference := none, recipientCode := none, status := .QUEUED, attempts := 0
      attemptedAt := none, completedAt := none, failureReason := none, updatedAt := w.now }
  have hnew : ∀ r ∈ σ.1.payouts.rows, ∀ k ∈ Indexed.keys r, k ∉ Indexed.keys payout := by
    intro r hr k hk
    have hid := (h.payouts σ.2 hn le_rfl r hr).1
    have hpair := hfree r hr
    simp only [Indexed.keys, List.mem_append, List.mem_cons, List.not_mem_nil, or_false, payout, Option.map_none,
      Option.toList_none, List.append_nil] at hk ⊢
    rcases hk with (rfl | rfl) | hk
    · simpa using hid
    · simpa using hpair
    · obtain ⟨reference, -, rfl⟩ : ∃ reference, r.transferReference = some reference ∧ Key.text reference = k := by
        simpa using hk
      simp
  obtain ⟨t, ht⟩ := Table.insert_of_fresh (by simp [Indexed.keys, payout]) hnew
  refine ⟨({ σ.1 with payouts := t }, σ.2 + 1), ?_, rfl, ⟨h.distinct, ?_, ?_⟩, ?_⟩
  · simp only [createPayout, Tx.bind_ok, Tx.freshId_ok, Tx.now_ok, not_le.mpr hpos, if_false, Tx.pure_ok]
    refine ⟨_, (σ.1, σ.2 + 1), ⟨rfl, rfl⟩, _, _, ⟨rfl, rfl⟩, (), ({ σ.1 with payouts := t }, σ.2 + 1), ?_, ?_⟩
    · simp only [Model.create, Tx.write_ok, Model.payout]
      exact ⟨by rw [ht]; rfl, trivial⟩
    · exact ⟨rfl, rfl⟩
  · exact fun i hi hle => h.accounts i hi (by omega)
  · intro i hi hle p hp
    rw [Table.rows_insert ht, List.mem_append, List.mem_singleton] at hp
    rcases hp with hp | rfl
    · exact h.payouts i hi (by omega) p hp
    · refine ⟨fun heq => ?_, h.accounts i hi (by omega) _ hmem⟩
      have := h.distinct σ.2 hn i hi heq
      omega
  · intro spec hspec hne a ha hacc p hp hboth
    rw [Table.rows_insert ht, List.mem_append, List.mem_singleton] at hp
    rcases hp with hp | rfl
    · exact hspec a ha hacc p hp hboth
    · -- the new payout's account is that of another line
      have hid : account = a.id := hboth.1
      have hsame : (⟨account, type, owner⟩ : LedgerAccount) = a :=
        Table.eq_of_key (k := .id account) hmem ha (by simp [Indexed.keys]) (by simp [Indexed.keys, hid])
      rw [← hsame] at hacc
      simp only [isAccount, Bool.and_eq_true, beq_iff_eq] at hacc
      exact hne (Prod.ext hacc.1 hacc.2)

lemma createPayouts_commits (txId : Uuid) (h : Unused w n σ) (hn : σ.2 + 2 * specs.length ≤ n)
    (hpos : ∀ e ∈ specs, 0 < e.amountKobo)
    (hdistinct : (specs.filter isObligation).Pairwise fun e e' =>
      (e.accountType, e.ownerId) ≠ (e'.accountType, e'.ownerId))
    (hfree : ∀ e ∈ specs.filter isObligation, Free txId e σ.1) :
    ∃ ids σ', createPayouts txId specs w σ = .ok (ids, σ') := by
  induction specs generalizing σ with
  | nil => exact ⟨[], σ, rfl⟩
  | cons spec specs ih =>
    rw [List.length_cons] at hn
    have hpos' : ∀ e ∈ specs, 0 < e.amountKobo := fun e he => hpos e (List.mem_cons_of_mem _ he)
    unfold createPayouts
    split
    · rename_i hno
      rw [List.filter_cons_of_neg (by simpa using hno)] at hdistinct hfree
      exact ih h (by omega) hpos' hdistinct hfree
    · rename_i hyes
      rw [List.filter_cons_of_pos (by simpa using hyes)] at hdistinct hfree
      rw [List.pairwise_cons] at hdistinct
      obtain ⟨id, σ₁, hres, hdrawn, h₁, -, hfree₁⟩ :=
        resolveAccountId_commits spec.accountType spec.ownerId h (by omega)
      have hacc := (resolveAccountId_ok hres).2
      have hnone : ∀ p ∈ σ₁.1.payouts.rows, ¬(p.ledgerAccountId = id ∧ p.transactionId = txId) :=
        hfree₁ txId spec (hfree spec (by simp)) _ hacc (by simp [isAccount])
      obtain ⟨σ₂, hcreate, hdrawn₂, h₂, hfree₂⟩ :=
        createPayout_commits h₁ (by omega) (hpos spec (by simp)) hacc hnone
      have hrest : ∀ e ∈ specs.filter isObligation, Free txId e σ₂.1 := fun e he =>
        hfree₂ e (hfree₁ txId e (hfree e (List.mem_cons_of_mem _ he))) (hdistinct.1 e he)
      obtain ⟨ids, σ', hids⟩ := ih h₂ (by omega) hpos' hdistinct.2 hrest
      refine ⟨w.uuid σ₁.2 :: ids, σ', ?_⟩
      simp only [Tx.bind_ok]
      exact ⟨id, σ₁, hres, _, σ₂, hcreate, ids, σ', hids, rfl⟩

/-! ### The transaction -/

lemma claimPayment_commits (paymentId : Uuid) (σ : Db × ℕ) :
    ∃ count t, claimPayment paymentId w σ = .ok (count, { σ.1 with payments := t }, σ.2) ∧
    count = σ.1.payments.rows.countP fun p => p.id == paymentId && SETTLEABLE.contains p.status := by
  obtain ⟨count, σ₁, hupd⟩ := Model.updateMany_of_keys (M := Model.paymentTransaction) (w := w) (σ := σ)
    (p := fun p => p.id == paymentId && SETTLEABLE.contains p.status)
    (f := fun p => { p with status := .SUCCESS, updatedAt := w.now }) fun _ _ => rfl
  obtain ⟨hcount, t, -, rfl⟩ := Model.updateMany_ok hupd
  exact ⟨count, t, hupd, hcount⟩

/-- **It commits** where the payment is still to be settled, the lines balance, and what it inserts is new. -/
theorem settleTransaction_commits {payment : PaymentTransaction} (h : Unused w n (s, 0))
    (hn : 3 * specs.length ≤ n) (hmem : payment ∈ s.payments.rows)
    (hopen : SETTLEABLE.contains payment.status = true) (hbalanced : assertBalanced specs = .ok ())
    (hdistinct : (specs.filter isObligation).Pairwise fun e e' =>
      (e.accountType, e.ownerId) ≠ (e'.accountType, e'.ownerId))
    (hfree : ∀ e ∈ specs.filter isObligation, Free payment.id e s) :
    ∃ ids s', (settleTransaction payment.id specs).run w s = .ok (some ids, s') := by
  obtain ⟨count, t, hclaim, hcount⟩ := claimPayment_commits (w := w) payment.id (s, 0)
  have hsome : count ≠ 0 := by
    rw [hcount, ne_eq, List.countP_eq_zero]
    exact fun hall => hall payment hmem (by simp only [beq_self_eq_true, hopen, Bool.and_self])
  have h₁ : Unused w n ({ s with payments := t }, 0) := ⟨h.distinct, h.accounts, h.payouts⟩
  obtain ⟨σ₂, hpost, hle, h₂, hfree₂⟩ := post_commits .settlement payment.id h₁ (by simp only; omega) hbalanced
  have hpos : ∀ e ∈ specs, 0 < e.amountKobo := fun e he => ((assertBalanced_ok.mp hbalanced).2.1 e he).2
  obtain ⟨ids, σ₃, hpayouts⟩ := createPayouts_commits payment.id h₂ (by simp only at hle; omega) hpos
    hdistinct fun e he => hfree₂ _ e (hfree e he)
  refine ⟨ids, σ₃.1, Tx.run_ok.mpr ⟨σ₃.2, ?_⟩⟩
  unfold settleTransaction
  rw [Tx.bind_ok]
  refine ⟨count, _, hclaim, ?_⟩
  rw [if_neg hsome]
  simp only [Tx.bind_ok]
  exact ⟨(), σ₂, hpost, ids, σ₃, hpayouts, rfl⟩

/-- Somebody else had settled the payment. -/
lemma settleTransaction_none (h : (settleTransaction paymentId specs).run w s = .ok (none, s')) : s' = s := by
  rcases settleTransaction_parts h with ⟨-, hsame⟩ | ⟨payments', σ₂, ids, n, hids, -⟩
  · exact hsame
  · cases hids

/-- The payment is `SUCCESS`, and its payouts were not there before. -/
lemma settleTransaction_some {ids : List Uuid}
    (h : (settleTransaction paymentId specs).run w s = .ok (some ids, s')) :
    (∃ row ∈ s'.payments.rows, row.id = paymentId ∧ row.status = .SUCCESS) ∧
      ∀ e ∈ specs.filter isObligation, Free paymentId e s := by
  rcases settleTransaction_parts h with
    ⟨hnone, -⟩ | ⟨payments', σ₂, ids', n, -, ⟨row, hrow, hid, hstatus⟩, hupd, hpost, hpayouts⟩
  · cases hnone
  obtain ⟨-, db, entries, ⟨accounts₂, hdb, hpre₂⟩, -, h₂⟩ := post_ok hpost
  obtain ⟨accounts', payouts', payouts, h₃, hpre₃, hrows, howed, -, -⟩ := createPayouts_ok hpayouts
  have hpayments : s'.payments = payments' := by
    rw [show s' = _ from h₃, h₂, hdb]
  constructor
  · have hnew : { row with status := .SUCCESS, updatedAt := w.now } ∈ payments'.rows := by
      rw [Table.rows_update hupd]
      exact List.mem_map.mpr ⟨row, hrow, if_pos (by rw [hid, hstatus, beq_self_eq_true, Bool.and_self])⟩
    rw [hpayments]
    exact ⟨_, hnew, hid, rfl⟩
  · intro e he a ha hacc p hp hboth
    -- the payout the transaction created for the line would share the index with the stored one
    obtain ⟨o, ho, htx, -, hmem⟩ := exists_of_forall₂ (List.Forall₂.flip (R := flip _) howed) he
    obtain ⟨q, hq, rfl⟩ := List.mem_map.mp ho
    have hbefore : a ∈ s'.ledgerAccounts.rows := by
      rw [show s' = _ from h₃]
      refine hpre₃.subset ?_
      rw [h₂, hdb]
      exact hpre₂.subset ha
    rw [isAccount_iff.mp hacc] at hbefore
    have haccount : q.ledgerAccountId = a.id := account_unique hmem hbefore
    have hstored : σ₂.1.payouts.rows = s.payouts.rows := by
      rw [h₂, hdb]
    rw [hstored] at hrows
    have hpq : p = q := by
      refine Table.eq_of_key (t := payouts') (k := .pair a.id paymentId) ?_ ?_ ?_ ?_
      · rw [hrows]
        exact List.mem_append_left _ hp
      · rw [hrows]
        exact List.mem_append_right _ hq
      · simp [Indexed.keys, hboth.1, hboth.2]
      · simp [Indexed.keys, haccount, show q.transactionId = paymentId from htx]
    have hnodup := Table.nodup_rows (t := payouts')
    rw [hrows, List.nodup_append] at hnodup
    exact hnodup.2.2 p hp q hq hpq

end Splitcore.Money
