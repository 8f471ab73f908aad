import Splitcore.Money.Services

/-!
The status of a payout: what every statement may make of it.
-/

namespace Splitcore.Money

open Relational Interleaving Ledger

/-- What a statement may make of the status of a payout; a reopening is `retryPayout`'s and not among it. -/
inductive StatusStep (site : Site) (payoutId : Uuid) : PayoutStatus → PayoutStatus → Prop
  | stays (status : PayoutStatus) : StatusStep site payoutId status status
  | held {status : PayoutStatus} (hsite : site = .processPayoutHold payoutId)
      (hopen : OPEN_STATUSES.contains status = true) : StatusStep site payoutId status .QUEUED
  | claimed {status : PayoutStatus} (hsite : site = .processPayoutClaim payoutId)
      (hopen : OPEN_STATUSES.contains status = true) : StatusStep site payoutId status .PROCESSING
  | delivered {status : PayoutStatus} (hsite : site = .markSucceededTransaction payoutId)
      (hstatus : status ≠ .SUCCESS) : StatusStep site payoutId status .SUCCESS
  | returned (hsite : site = .handleTransferEventReversed payoutId) :
      StatusStep site payoutId .SUCCESS .RETRYING
  | failed {status : PayoutStatus} (hsite : site = .handleTransferEventRetrying payoutId)
      (hstatus : status ≠ .SUCCESS) : StatusStep site payoutId status .RETRYING
  | reviewed {status : PayoutStatus} (hsite : site = .markForReview payoutId)
      (hstatus : status ≠ .SUCCESS) : StatusStep site payoutId status .FAILED

/-- Every payout stays, in a status that the statement may give it. -/
def Moves (site : Site) (db db' : Db) : Prop :=
  ∀ p ∈ db.payouts.rows, ∃ p' ∈ db'.payouts.rows, p'.id = p.id ∧ StatusStep site p.id p.status p'.status

section Statements

variable {α β : Type} {site : Site} {s s' : Db} {w : Input} {σ σ' : Db × ℕ}

lemma moves_same (h : s'.payouts = s.payouts) : Moves site s s' :=
  fun p hp => ⟨p, h ▸ hp, rfl, .stays _⟩

lemma moves_update {guard : Payout → Bool} {update : Payout → Payout}
    (ht : s.payouts.update guard update = some s'.payouts) (hid : ∀ p, (update p).id = p.id)
    (hstatus : ∀ p, guard p = true → StatusStep site p.id p.status (update p).status) : Moves site s s' := by
  intro p hp
  have hmem : (if guard p then update p else p) ∈ s'.payouts.rows := by
    rw [Table.rows_update ht]
    exact List.mem_map.mpr ⟨p, hp, rfl⟩
  by_cases hg : guard p = true
  · rw [if_pos hg] at hmem
    exact ⟨_, hmem, hid p, hstatus p hg⟩
  · rw [if_neg hg] at hmem
    exact ⟨_, hmem, rfl, .stays _⟩

lemma moves_updateMany {guard : Payout → Bool} {update : Payout → Payout} {n : ℕ}
    (h : Model.payout.updateMany guard update w σ = .ok (n, σ')) (hid : ∀ p, (update p).id = p.id)
    (hstatus : ∀ p, guard p = true → StatusStep site p.id p.status (update p).status) :
    Moves site σ.1 σ'.1 := by
  obtain ⟨-, t, ht, rfl⟩ := Model.updateMany_ok h
  exact moves_update ht hid hstatus

lemma moves_claimAndPost {guard : Payout → Bool} {update : Payout → Payout} {origin : Origin}
    {transactionId : Uuid} {entries : List LedgerEntrySpec} {b : Bool} {n : ℕ}
    (h : claimAndPost guard update origin transactionId entries w (s, 0) = .ok (b, s', n))
    (hid : ∀ p, (update p).id = p.id)
    (hstatus : ∀ p, guard p = true → StatusStep site p.id p.status (update p).status) : Moves site s s' := by
  rcases claimAndPost_ok h with ⟨rfl, -⟩ | ⟨row, -, -, payouts', accounts', es, hupd, -, hafter, -⟩
  · exact moves_same rfl
  · have hpayouts : s'.payouts = payouts' := congrArg Db.payouts hafter
    exact moves_update (hpayouts ▸ hupd) hid hstatus

lemma each_statement {m : Tx α} (h : ∀ w s a s', m.run w s = .ok (a, s') → Moves site s s') :
    (statement site m).Each Moves :=
  Prog.each_command (fun _ => moves_same rfl) h

lemma each_read {f : Db → α} {k : α → Prog App β} (hk : ∀ a, (k a).Each Moves) :
    (query site f >>= k).Each Moves :=
  Prog.each_bind (Prog.each_query fun _ => moves_same rfl) hk

lemma each_checked {r : Except Err α} {k : α → Prog App β} (hk : ∀ a, (k a).Each Moves) :
    (.ofExcept r >>= k : Prog App β).Each Moves :=
  Prog.each_bind Prog.each_ofExcept hk

lemma each_asked {q : Ask} {k : Ans q → Prog App β} (hk : ∀ a, (k a).Each Moves) :
    (request q >>= k).Each Moves :=
  Prog.each_bind Prog.each_request hk

/-- A transaction that leaves the payouts alone. -/
lemma each_leaves {m : Tx α} (h : m.Leaves Db.payouts) : (statement site m).Each Moves :=
  each_statement fun _ _ _ _ hm => moves_same (h.run hm)

end Statements

/-! ### Settlement -/

lemma reload_each {id : Uuid} : (some <$> reload id).Each Moves := by
  refine Prog.each_bind (each_leaves fun w σ r σ' h => ?_) fun _ => trivial
  rw [(Model.findUniqueOrThrow_ok h).2]

lemma transition_each {id : Uuid} {source : List PaymentStatus} {target : PaymentStatus} :
    (transition id source target).Each Moves :=
  each_leaves <| Tx.leaves_now fun _ =>
    Tx.leaves_bind (Model.updateMany_leaves fun _ _ => rfl) fun _ => Tx.leaves_pure

lemma enqueuePayouts_each {ids : List Uuid} : (enqueuePayouts ids).Each Moves := by
  induction ids with
  | nil => trivial
  | cons id ids ih => exact Prog.each_bind (Prog.each_attempt Prog.each_request) fun _ => ih

lemma settleVerified_each {reference : String} {payment : PaymentTransaction} :
    (settleVerified reference payment).Each Moves := by
  unfold settleVerified
  split
  · trivial
  refine Prog.each_bind (each_leaves fun w σ r σ' h => ?_) fun rule => each_checked fun entries => ?_
  · rw [(Model.findUniqueOrThrow_ok h).2]
  refine Prog.each_bind (each_statement fun w s o s' hm => ?_) fun o => ?_
  · rcases settleTransaction_ok hm with rfl | ⟨row, -, -, -, payments', accounts', payouts', payouts,
      entries', -, -, hrows, hafter, -⟩
    · exact moves_same rfl
    · have hpayouts : s'.payouts.rows = s.payouts.rows ++ payouts :=
        (congrArg (fun d : Db => d.payouts.rows) hafter).trans hrows
      exact fun p hp => ⟨p, by rw [hpayouts]; exact List.mem_append_left _ hp, rfl, .stays _⟩
  · rcases o with _ | ids
    · exact reload_each
    · exact Prog.each_bind enqueuePayouts_each fun _ => reload_each

lemma settle_each {reference : String} : (settle reference).Each Moves := by
  refine each_read fun found => ?_
  rcases found with _ | payment
  · trivial
  simp only
  split
  · trivial
  refine each_asked fun verification => ?_
  split
  · exact Prog.each_bind transition_each fun _ => reload_each
  · exact Prog.each_bind transition_each fun _ => reload_each
  · exact Prog.each_bind transition_each fun _ => reload_each
  · split
    · trivial
    · exact settleVerified_each

/-! ### Payouts -/

lemma markSucceeded_each {payoutId : Uuid} {reference : String} :
    (markSucceeded payoutId reference).Each Moves := by
  refine each_read fun found => ?_
  rcases found with _ | ⟨payout, account⟩
  · trivial
  refine each_checked fun entries => Prog.each_bind (each_statement fun w s b s' hm => ?_) fun _ => trivial
  obtain ⟨n, hm⟩ := Tx.run_ok.mp hm
  simp only [markSucceededTransaction, Tx.bind_ok, Tx.now_ok] at hm
  obtain ⟨_, _, ⟨rfl, rfl⟩, hm⟩ := hm
  refine moves_claimAndPost hm (fun _ => rfl) fun p hp => ?_
  simp only [Bool.and_eq_true, beq_iff_eq, bne_iff_ne] at hp
  exact .delivered (by rw [hp.1.1]) hp.2

lemma markForReview_each {payoutId : Uuid} {reason : String} :
    (markForReview payoutId reason).Each Moves := by
  refine each_statement fun w s a s' hm => ?_
  obtain ⟨n, h⟩ := Tx.run_ok.mp hm
  simp only [Tx.bind_ok, Tx.now_ok, Tx.pure_ok] at h
  obtain ⟨_, _, ⟨rfl, rfl⟩, c, σ₁, hupd, -, rfl⟩ := h
  refine moves_updateMany hupd (fun _ => rfl) fun p hp => ?_
  simp only [Bool.and_eq_true, beq_iff_eq, bne_iff_ne] at hp
  exact .reviewed (by rw [hp.1]) hp.2

lemma flagForOperator_each {payoutId : Uuid} : (flagForOperator payoutId).Each Moves := by
  refine each_statement fun w s a s' hm => ?_
  obtain ⟨n, h⟩ := Tx.run_ok.mp hm
  simp only [Tx.bind_ok, Tx.now_ok] at h
  obtain ⟨_, _, ⟨rfl, rfl⟩, hupd⟩ := h
  obtain ⟨t, ht, hafter⟩ := Model.update_ok hupd
  obtain rfl : s' = { s with payouts := t } := congrArg Prod.fst hafter
  exact moves_update ht (fun _ => rfl) fun _ _ => .stays _

lemma retryOrReview_each {payout : Payout} {outcome : TransferOutcome} {reason : Option String} :
    (retryOrReview payout outcome reason).Each Moves := by
  unfold retryOrReview
  split
  · exact markForReview_each
  · exact Prog.each_request

lemma handleTransferEvent_each {reference : String} {outcome : TransferOutcome}
    {reason : Option String} : (handleTransferEvent reference outcome reason).Each Moves := by
  refine each_read fun found => ?_
  rcases found with _ | ⟨payout, account⟩
  · trivial
  simp only
  split
  · exact markSucceeded_each
  split
  · refine each_checked fun entries => Prog.each_bind (each_statement fun w s b s' hm => ?_) fun b => ?_
    · obtain ⟨n, hm⟩ := Tx.run_ok.mp hm
      simp only [reversedTransaction, Tx.bind_ok, Tx.now_ok] at hm
      obtain ⟨_, _, ⟨rfl, rfl⟩, hm⟩ := hm
      refine moves_claimAndPost hm (fun _ => rfl) fun p hp => ?_
      simp only [Bool.and_eq_true, beq_iff_eq] at hp
      rw [hp.1.2]
      exact .returned (by rw [hp.1.1])
    · split
      · exact retryOrReview_each
      · trivial
  split
  · refine Prog.each_bind (each_statement fun w s a s' hm => ?_) fun _ => retryOrReview_each
    obtain ⟨n, h⟩ := Tx.run_ok.mp hm
    simp only [Tx.bind_ok, Tx.now_ok, Tx.pure_ok] at h
    obtain ⟨_, _, ⟨rfl, rfl⟩, c, σ₁, hupd, -, rfl⟩ := h
    refine moves_updateMany hupd (fun _ => rfl) fun p hp => ?_
    simp only [Bool.and_eq_true, beq_iff_eq, bne_iff_ne] at hp
    exact .failed (by rw [hp.1.1]) hp.2
  · trivial

lemma transferAnswered_each {payout : Payout} {reference : String} {transfer : Transfer} :
    (transferAnswered payout reference transfer).Each Moves := by
  unfold transferAnswered
  split
  · exact markSucceeded_each
  · exact handleTransferEvent_each
  · exact handleTransferEvent_each
  · exact flagForOperator_each
  · trivial

lemma sendTransfer_each {payout : Payout} {account : LedgerAccount}
    {recipientName bankCode accountNumber transferReason : String} :
    (sendTransfer payout account recipientName bankCode accountNumber transferReason).Each Moves := by
  refine each_asked fun code => Prog.each_bind (each_statement fun w s a s' hm => ?_) fun _ =>
    each_asked fun transfer => transferAnswered_each
  obtain ⟨n, h⟩ := Tx.run_ok.mp hm
  simp only [Tx.bind_ok, Tx.now_ok] at h
  obtain ⟨_, _, ⟨rfl, rfl⟩, hupd⟩ := h
  obtain ⟨t, ht, hafter⟩ := Model.update_ok hupd
  obtain rfl : s' = { s with payouts := t } := congrArg Prod.fst hafter
  exact moves_update ht (fun _ => rfl) fun _ _ => .stays _

lemma hold_each {payout : Payout} (hopen : OPEN_STATUSES.contains payout.status = true) :
    (hold payout).Each Moves := by
  unfold hold
  split
  · refine each_statement fun w s a s' hm => ?_
    obtain ⟨n, h⟩ := Tx.run_ok.mp hm
    simp only [Tx.bind_ok, Tx.now_ok, Tx.pure_ok] at h
    obtain ⟨_, _, ⟨rfl, rfl⟩, c, σ₁, hupd, -, rfl⟩ := h
    refine moves_updateMany hupd (fun _ => rfl) fun p hp => ?_
    simp only [Bool.and_eq_true, beq_iff_eq] at hp
    exact .held (by rw [hp.1]) (by rw [hp.2]; exact hopen)
  · trivial

lemma resolveDestination_each {account : LedgerAccount} : (resolveDestination account).Each Moves := by
  unfold resolveDestination
  split
  · trivial
  · exact each_read fun _ => trivial
  · exact each_read fun _ => trivial
  · trivial

lemma newAttempt_each {payout : Payout} {account : LedgerAccount}
    (hopen : OPEN_STATUSES.contains payout.status = true) : (newAttempt payout account).Each Moves := by
  refine Prog.each_bind resolveDestination_each fun destination => ?_
  cases destination with
  | review reason => exact markForReview_each
  | hold reason => exact hold_each hopen
  | send name bankCode accountNumber reason =>
    refine Prog.each_bind (each_statement fun w s n s' hm => ?_) fun count => ?_
    · obtain ⟨m, h⟩ := Tx.run_ok.mp hm
      simp only [Tx.bind_ok, Tx.now_ok] at h
      obtain ⟨_, _, ⟨rfl, rfl⟩, h⟩ := h
      refine moves_updateMany h (fun _ => rfl) fun p hp => ?_
      simp only [Bool.and_eq_true, beq_iff_eq] at hp
      exact .claimed (by rw [hp.1.1]) hp.1.2
    · split
      · trivial
      · exact sendTransfer_each

lemma processPayout_each {payoutId : Uuid} : (processPayout payoutId).Each Moves := by
  refine each_read fun found => ?_
  rcases found with _ | ⟨payout, account⟩
  · trivial
  simp only
  split
  · trivial
  rename_i hopen
  replace hopen : OPEN_STATUSES.contains payout.status = true := by simpa using hopen
  split
  · exact newAttempt_each hopen
  refine each_asked fun previous => ?_
  cases previous with
  | success => exact markSucceeded_each
  | pending => trivial
  | requires_action => exact flagForOperator_each
  | failed | reversed | not_found => exact newAttempt_each hopen

lemma enqueueAll_each {ids : List Uuid} : (enqueueAll ids).Each Moves := by
  induction ids with
  | nil => trivial
  | cons id ids ih => exact Prog.each_bind Prog.each_request fun _ => ih

lemma enqueueDuePayouts_each : enqueueDuePayouts.Each Moves := by
  refine Prog.each_bind (each_statement fun w s a s' hm => ?_) fun candidates =>
    each_read fun _ => each_read fun _ => Prog.each_bind enqueueAll_each fun _ => trivial
  rw [(sweepCandidates_ok hm).1]
  exact moves_same rfl

/-- What every call but a retry makes of a payout's status. -/
theorem program_moves (o : Operation) (ho : ∀ payoutId, o ≠ .retryPayout payoutId) : o.program.Each Moves := by
  cases o with
  | settle reference => exact Prog.each_bind settle_each fun _ => trivial
  | processPayout payoutId => exact processPayout_each
  | handleTransferEvent reference outcome reason => exact handleTransferEvent_each
  | retryPayout payoutId => exact absurd rfl (ho payoutId)
  | enqueueDuePayouts => exact Prog.each_bind enqueueDuePayouts_each fun _ => trivial

end Splitcore.Money
