import Splitcore.Money.Guarantees

/-!
What settlements and payouts leave alone: everything beside the books, that is beside payments,
the ledger and payouts.
-/

namespace Splitcore.Money

open Relational Interleaving Ledger

/-- The statements of settlements and payouts. -/
def ofBooks : Site → Bool
  | .settleFind _ | .settleSplitRule _ | .settleTransaction _ | .transition _ | .reload _
  | .processPayoutFind _ | .processPayoutHold _ | .processPayoutClaim _ | .processPayoutRecipient _
  | .resolveDestinationEntertainer _ | .resolveDestinationVenue _ | .flagForOperator _
  | .handleTransferEventFind _ | .handleTransferEventReversed _ | .handleTransferEventRetrying _
  | .retryPayoutClaim _ | .retryPayoutExists _ | .retryPayoutReload _
  | .enqueueDuePayoutsCandidates | .enqueueDuePayoutsEntertainers | .enqueueDuePayoutsVenues
  | .markSucceededFind _ | .markSucceededTransaction _ | .markForReview _ => true
  | _ => false

/-- The questions of settlements and of transfer events. -/
def asksOfBooks : Ask → Bool
  | .verifyPayment _ | .addPayoutJob _ _ => true
  | _ => false

/-- `f` shows nothing of the books. -/
def BesideBooks {γ : Type} (f : Db → γ) : Prop :=
  ∀ db payments accounts postings payouts, f { db with
    payments := payments, ledgerAccounts := accounts, postings := postings
    payouts := payouts } = f db

/-- The program leaves what `f` shows alone. -/
abbrev SparesBeside {α γ : Type} (f : Db → γ) (p : Prog App α) : Prop :=
  p.Spares (fun site => ofBooks site = true) (fun q => asksOfBooks q = true) f

variable {α β γ : Type} {f : Db → γ}

section Rules

variable {site : Site} {k : α → Prog App β}

lemma spares_read {g : Db → α} (hsite : ofBooks site = true) (hk : ∀ a, SparesBeside f (k a)) :
    SparesBeside f (query site g >>= k) :=
  Prog.spares_bind (Prog.spares_query hsite) hk

lemma spares_write {m : Tx α} (hsite : ofBooks site = true) (hm : m.Leaves f) :
    SparesBeside f (statement site m) :=
  Prog.spares_command hsite fun _ _ _ _ h => hm.run h

lemma spares_ask {q : Ask} {k : Ans q → Prog App β} (hq : asksOfBooks q = true)
    (hk : ∀ a, SparesBeside f (k a)) : SparesBeside f (request q >>= k) :=
  Prog.spares_bind (Prog.spares_request hq) hk

lemma spares_checked {r : Except Err α} (hk : ∀ a, SparesBeside f (k a)) :
    SparesBeside f (.ofExcept r >>= k) :=
  Prog.spares_bind Prog.spares_ofExcept hk

end Rules

variable (hf : BesideBooks f)
include hf

/-! ### Transactions -/

lemma payments_leaves {p : PaymentTransaction → Bool} {u : PaymentTransaction → PaymentTransaction} :
    (Model.paymentTransaction.updateMany p u).Leaves f :=
  Model.updateMany_leaves fun db _ => hf db _ db.ledgerAccounts db.postings db.payouts

lemma payouts_leaves {p : Payout → Bool} {u : Payout → Payout} :
    (Model.payout.updateMany p u).Leaves f :=
  Model.updateMany_leaves fun db _ => hf db db.payments db.ledgerAccounts db.postings _

lemma payout_leaves {p : Payout → Bool} {u : Payout → Payout} : (Model.payout.update p u).Leaves f :=
  Model.update_leaves fun db _ => hf db db.payments db.ledgerAccounts db.postings _

lemma post_leaves {origin : Origin} {transactionId : Uuid} {specs : List LedgerEntrySpec} :
    (post origin transactionId specs).Leaves f := by
  intro w σ u σ' h
  obtain ⟨-, db, es, ⟨t, hdb, -⟩, -, hafter⟩ := post_ok h
  rw [hafter, hdb]
  exact hf σ.1 σ.1.payments t _ σ.1.payouts

lemma createPayouts_leaves {transactionId : Uuid} {specs : List LedgerEntrySpec} :
    (createPayouts transactionId specs).Leaves f := by
  intro w σ ids σ' h
  obtain ⟨accounts, payouts, -, hafter, -⟩ := createPayouts_ok h
  rw [hafter]
  exact hf σ.1 σ.1.payments accounts σ.1.postings payouts

lemma settleTransaction_leaves {paymentId : Uuid} {specs : List LedgerEntrySpec} :
    (settleTransaction paymentId specs).Leaves f := by
  refine Tx.leaves_bind (Tx.leaves_now fun _ => payments_leaves hf) fun count => ?_
  split
  · exact Tx.leaves_pure
  · exact Tx.leaves_bind (post_leaves hf) fun _ =>
      Tx.leaves_bind (createPayouts_leaves hf) fun _ => Tx.leaves_pure

lemma claimAndPost_leaves {guard : Payout → Bool} {update : Payout → Payout} {origin : Origin}
    {transactionId : Uuid} {specs : List LedgerEntrySpec} :
    (claimAndPost guard update origin transactionId specs).Leaves f := by
  refine Tx.leaves_bind (payouts_leaves hf) fun count => ?_
  split
  · exact Tx.leaves_pure
  · exact Tx.leaves_bind (post_leaves hf) fun _ => Tx.leaves_pure

/-! ### Settlement -/

omit hf in
lemma reload_spares {id : Uuid} : SparesBeside f (some <$> reload id) := by
  refine Prog.spares_bind (spares_write rfl fun w σ r σ' h => ?_) fun _ => trivial
  rw [(Model.findUniqueOrThrow_ok h).2]

lemma transition_spares {id : Uuid} {source : List PaymentStatus} {target : PaymentStatus} :
    SparesBeside f (transition id source target) :=
  spares_write rfl <| Tx.leaves_now fun _ => Tx.leaves_bind (payments_leaves hf) fun _ =>
    Tx.leaves_pure

omit hf in
lemma enqueuePayouts_spares {ids : List Uuid} : SparesBeside f (enqueuePayouts ids) := by
  induction ids with
  | nil => trivial
  | cons id ids ih =>
    exact Prog.spares_bind (Prog.spares_attempt (Prog.spares_request rfl)) fun _ => ih

lemma settleVerified_spares {reference : String} {payment : PaymentTransaction} :
    SparesBeside f (settleVerified reference payment) := by
  unfold settleVerified
  split
  · trivial
  refine Prog.spares_bind (spares_write rfl fun w σ r σ' h => ?_) fun rule => ?_
  · rw [(Model.findUniqueOrThrow_ok h).2]
  refine spares_checked fun entries => ?_
  refine Prog.spares_bind (spares_write rfl (settleTransaction_leaves hf)) fun o => ?_
  rcases o with _ | ids
  · exact reload_spares
  · exact Prog.spares_bind enqueuePayouts_spares fun _ => reload_spares

theorem settle_spares {reference : String} : SparesBeside f (settle reference) := by
  refine spares_read rfl fun found => ?_
  rcases found with _ | payment
  · trivial
  simp only
  split
  · trivial
  refine spares_ask rfl fun verification => ?_
  split
  · exact Prog.spares_bind (transition_spares hf) fun _ => reload_spares
  · exact Prog.spares_bind (transition_spares hf) fun _ => reload_spares
  · exact Prog.spares_bind (transition_spares hf) fun _ => reload_spares
  · split
    · trivial
    · exact settleVerified_spares hf

/-! ### Payouts -/

lemma markSucceeded_spares {payoutId : Uuid} {reference : String} :
    SparesBeside f (markSucceeded payoutId reference) := by
  refine spares_read rfl fun found => ?_
  rcases found with _ | ⟨payout, account⟩
  · trivial
  · exact spares_checked fun entries => Prog.spares_bind
      (spares_write rfl <| Tx.leaves_now fun _ => claimAndPost_leaves hf) fun _ => trivial

lemma markForReview_spares {payoutId : Uuid} {reason : String} :
    SparesBeside f (markForReview payoutId reason) :=
  spares_write rfl <| Tx.leaves_now fun _ => Tx.leaves_bind (payouts_leaves hf) fun _ =>
    Tx.leaves_pure

lemma flagForOperator_spares {payoutId : Uuid} : SparesBeside f (flagForOperator payoutId) :=
  spares_write rfl <| Tx.leaves_now fun _ => payout_leaves hf

lemma retryOrReview_spares {payout : Payout} {outcome : TransferOutcome} {reason : Option String} :
    SparesBeside f (retryOrReview payout outcome reason) := by
  unfold retryOrReview
  split
  · exact markForReview_spares hf
  · exact Prog.spares_request rfl

theorem handleTransferEvent_spares {reference : String} {outcome : TransferOutcome}
    {reason : Option String} : SparesBeside f (handleTransferEvent reference outcome reason) := by
  refine spares_read rfl fun found => ?_
  rcases found with _ | ⟨payout, account⟩
  · trivial
  simp only
  split
  · exact markSucceeded_spares hf
  split
  · refine spares_checked fun entries => Prog.spares_bind
      (spares_write rfl <| Tx.leaves_now fun _ => claimAndPost_leaves hf) fun reversed => ?_
    split
    · exact retryOrReview_spares hf
    · trivial
  split
  · refine Prog.spares_bind (spares_write rfl ?_) fun _ => retryOrReview_spares hf
    exact Tx.leaves_now fun _ => Tx.leaves_bind (payouts_leaves hf) fun _ => Tx.leaves_pure
  · trivial

lemma transferAnswered_spares {payout : Payout} {reference : String} {transfer : Transfer} :
    SparesBeside f (transferAnswered payout reference transfer) := by
  unfold transferAnswered
  split
  · exact markSucceeded_spares hf
  · exact handleTransferEvent_spares hf
  · exact handleTransferEvent_spares hf
  · exact flagForOperator_spares hf
  · trivial

lemma hold_spares {payout : Payout} : SparesBeside f (hold payout) := by
  unfold hold
  split
  · exact spares_write rfl <| Tx.leaves_now fun _ => Tx.leaves_bind (payouts_leaves hf) fun _ =>
      Tx.leaves_pure
  · trivial

end Splitcore.Money
