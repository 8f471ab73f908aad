import Splitcore.Interleaving.Inputs
import Splitcore.Money.Checkout
import Splitcore.Money.Returned

/-!
When entries are written: a statement dates what it posts by its own clock, and only the settlement
transaction of a payment posts its settlement.
-/

namespace Splitcore.Money

open Relational Interleaving Ledger

/-- What a statement posts is of now; a settlement is its payment's own. -/
def Dated (site : Site) (w : Input) (db db' : Db) : Prop :=
  ∀ po, db'.postings = db.postings ++ [po] →
    (∀ e ∈ po.entries, e.createdAt = w.now) ∧
      (po.origin = .settlement → site = .settleTransaction po.transactionId)

section Statements

variable {α β : Type} {site : Site} {s s' db : Db} {w : Input} {σ σ' : Db × ℕ}

lemma dated_quiet (h : s'.postings = s.postings) : Dated site w s s' := fun po hpo => by
  have hlength := congrArg List.length (h.symm.trans hpo)
  simp at hlength

lemma post_dated {origin : Origin} {transactionId : Uuid} {specs : List LedgerEntrySpec} {u : Unit}
    (h : post origin transactionId specs w σ = .ok (u, σ')) : ∃ es, (∀ e ∈ es, e.createdAt = w.now) ∧
      σ'.1.postings = σ.1.postings ++ [⟨origin, transactionId, es⟩] := by
  simp only [post, Tx.bind_ok, Tx.liftExcept_ok, Tx.now_ok, Tx.write_ok] at h
  obtain ⟨⟨⟩, σ₁, ⟨-, rfl⟩, ids, σ₂, hids, _, _, ⟨rfl, rfl⟩, hw, -⟩ := h
  obtain ⟨t, ht, -⟩ := (accountIds_ok hids (by simp [Known])).1
  refine ⟨specs.map (row transactionId ids w.now), fun e he => ?_, ?_⟩
  · obtain ⟨spec, -, rfl⟩ := List.mem_map.mp he
    rfl
  · rw [← Option.some.inj hw, ht]

/-- The one new posting is dated. -/
lemma dated_posted {po : Posting} (hpost : s'.postings = s.postings ++ [po])
    (hdate : ∀ e ∈ po.entries, e.createdAt = w.now)
    (hsite : po.origin = .settlement → site = .settleTransaction po.transactionId) : Dated site w s s' :=
  fun po' hpo' => by
    obtain ⟨-, heq⟩ := List.append_inj' (hpost.symm.trans hpo') rfl
    obtain rfl : po = po' := by simpa using heq
    exact ⟨hdate, hsite⟩

lemma settleTransaction_dated {paymentId : Uuid} {specs : List LedgerEntrySpec} {o : Option (List Uuid)}
    (h : (settleTransaction paymentId specs).run w s = .ok (o, s')) :
    Dated (.settleTransaction paymentId) w s s' := by
  rcases settleTransaction_parts h with ⟨-, rfl⟩ | ⟨payments', σ₂, ids, n, -, -, -, hpost, hpayouts⟩
  · exact dated_quiet rfl
  · obtain ⟨es, hdate, hpostings⟩ := post_dated hpost
    obtain ⟨accounts, payouts, -, hafter, -⟩ := createPayouts_ok hpayouts
    have hsame : s'.postings = σ₂.1.postings := (congrArg Db.postings hafter :)
    exact dated_posted (hsame.trans hpostings) hdate fun _ => rfl

lemma claimAndPost_dated {guard : Payout → Bool} {update : Payout → Payout} {origin : Origin}
    {transactionId : Uuid} {entries : List LedgerEntrySpec} {b : Bool} {n : ℕ}
    (h : claimAndPost guard update origin transactionId entries w (s, 0) = .ok (b, s', n))
    (horigin : origin ≠ .settlement) : Dated site w s s' := by
  simp only [claimAndPost, Tx.bind_ok] at h
  obtain ⟨count, σ₁, hclaim, h⟩ := h
  obtain ⟨-, payouts', -, rfl⟩ := Model.updateMany_ok hclaim
  split at h
  · simp only [Tx.pure_ok] at h
    exact dated_quiet (congrArg (fun σ : Db × ℕ => σ.1.postings) h.2).symm
  · simp only [Tx.bind_ok, Tx.pure_ok] at h
    obtain ⟨⟨⟩, σ₂, hpost, -, hafter⟩ := h
    obtain ⟨es, hdate, hpostings⟩ := post_dated hpost
    have hsame : s'.postings = σ₂.1.postings := (congrArg (fun σ : Db × ℕ => σ.1.postings) hafter).symm
    exact dated_posted (hsame.trans hpostings) hdate fun h => absurd h horigin

lemma dated_statement {m : Tx α} (h : ∀ w s a s', m.run w s = .ok (a, s') → Dated site w s s') :
    (statement site m).EachIn Dated :=
  Prog.eachIn_command (fun _ _ => dated_quiet rfl) h

/-- A transaction that posts nothing. -/
lemma dated_leaves {m : Tx α} (h : m.Leaves Db.postings) : (statement site m).EachIn Dated :=
  dated_statement fun _ _ _ _ hm => dated_quiet (h.run hm)

lemma dated_read {f : Db → α} {k : α → Prog App β} (hk : ∀ a, (k a).EachIn Dated) :
    (query site f >>= k).EachIn Dated :=
  Prog.eachIn_bind (Prog.eachIn_query fun _ _ => dated_quiet rfl) hk

lemma dated_checked {r : Except Err α} {k : α → Prog App β} (hk : ∀ a, (k a).EachIn Dated) :
    (.ofExcept r >>= k : Prog App β).EachIn Dated :=
  Prog.eachIn_bind Prog.eachIn_ofExcept hk

lemma dated_asked {q : Ask} {k : Ans q → Prog App β} (hk : ∀ a, (k a).EachIn Dated) :
    (request q >>= k).EachIn Dated :=
  Prog.eachIn_bind Prog.eachIn_request hk

lemma payments_dated {p : PaymentTransaction → Bool} {u : PaymentTransaction → PaymentTransaction} :
    (Model.paymentTransaction.updateMany p u).Leaves Db.postings :=
  Model.updateMany_leaves fun _ _ => rfl

lemma payouts_dated {p : Payout → Bool} {u : Payout → Payout} :
    (Model.payout.updateMany p u).Leaves Db.postings :=
  Model.updateMany_leaves fun _ _ => rfl

lemma payout_dated {p : Payout → Bool} {u : Payout → Payout} : (Model.payout.update p u).Leaves Db.postings :=
  Model.update_leaves fun _ _ => rfl

end Statements

/-! ### Settlement -/

lemma reload_dated {id : Uuid} : (some <$> reload id).EachIn Dated := by
  refine Prog.eachIn_bind (dated_leaves fun w σ r σ' h => ?_) fun _ => trivial
  rw [(Model.findUniqueOrThrow_ok h).2]

lemma transition_dated {id : Uuid} {source : List PaymentStatus} {target : PaymentStatus} :
    (transition id source target).EachIn Dated :=
  dated_leaves <| Tx.leaves_now fun _ => Tx.leaves_bind payments_dated fun _ => Tx.leaves_pure

lemma enqueuePayouts_dated {ids : List Uuid} : (enqueuePayouts ids).EachIn Dated := by
  induction ids with
  | nil => trivial
  | cons id ids ih => exact Prog.eachIn_bind (Prog.eachIn_attempt Prog.eachIn_request) fun _ => ih

lemma settleVerified_dated {reference : String} {payment : PaymentTransaction} :
    (settleVerified reference payment).EachIn Dated := by
  unfold settleVerified
  split
  · trivial
  refine Prog.eachIn_bind (dated_leaves fun w σ r σ' h => ?_) fun rule => dated_checked fun entries => ?_
  · rw [(Model.findUniqueOrThrow_ok h).2]
  refine Prog.eachIn_bind (dated_statement fun w s o s' hm => settleTransaction_dated hm) fun o => ?_
  rcases o with _ | ids
  · exact reload_dated
  · exact Prog.eachIn_bind enqueuePayouts_dated fun _ => reload_dated

lemma settle_dated {reference : String} : (settle reference).EachIn Dated := by
  refine dated_read fun found => ?_
  rcases found with _ | payment
  · trivial
  simp only
  split
  · trivial
  refine dated_asked fun verification => ?_
  split
  · exact Prog.eachIn_bind transition_dated fun _ => reload_dated
  · exact Prog.eachIn_bind transition_dated fun _ => reload_dated
  · exact Prog.eachIn_bind transition_dated fun _ => reload_dated
  · split
    · trivial
    · exact settleVerified_dated

/-! ### Payouts -/

lemma markSucceeded_dated {payoutId : Uuid} {reference : String} :
    (markSucceeded payoutId reference).EachIn Dated := by
  refine dated_read fun found => ?_
  rcases found with _ | ⟨payout, account⟩
  · trivial
  refine dated_checked fun entries => Prog.eachIn_bind (dated_statement fun w s b s' hm => ?_) fun _ => trivial
  obtain ⟨n, hm⟩ := Tx.run_ok.mp hm
  simp only [markSucceededTransaction, Tx.bind_ok, Tx.now_ok] at hm
  obtain ⟨_, _, ⟨rfl, rfl⟩, hm⟩ := hm
  exact claimAndPost_dated hm fun h => by cases h

lemma markForReview_dated {payoutId : Uuid} {reason : String} : (markForReview payoutId reason).EachIn Dated :=
  dated_leaves <| Tx.leaves_now fun _ => Tx.leaves_bind payouts_dated fun _ => Tx.leaves_pure

lemma flagForOperator_dated {payoutId : Uuid} : (flagForOperator payoutId).EachIn Dated :=
  dated_leaves <| Tx.leaves_now fun _ => payout_dated

lemma retryOrReview_dated {payout : Payout} {outcome : TransferOutcome} {reason : Option String} :
    (retryOrReview payout outcome reason).EachIn Dated := by
  unfold retryOrReview
  split
  · exact markForReview_dated
  · exact Prog.eachIn_request

lemma handleTransferEvent_dated {reference : String} {outcome : TransferOutcome}
    {reason : Option String} : (handleTransferEvent reference outcome reason).EachIn Dated := by
  refine dated_read fun found => ?_
  rcases found with _ | ⟨payout, account⟩
  · trivial
  simp only
  split
  · exact markSucceeded_dated
  split
  · refine dated_checked fun entries => Prog.eachIn_bind (dated_statement fun w s b s' hm => ?_) fun b => ?_
    · obtain ⟨n, hm⟩ := Tx.run_ok.mp hm
      simp only [reversedTransaction, Tx.bind_ok, Tx.now_ok] at hm
      obtain ⟨_, _, ⟨rfl, rfl⟩, hm⟩ := hm
      exact claimAndPost_dated hm fun h => by cases h
    · split
      · exact retryOrReview_dated
      · trivial
  split
  · refine Prog.eachIn_bind (dated_leaves ?_) fun _ => retryOrReview_dated
    exact Tx.leaves_now fun _ => Tx.leaves_bind payouts_dated fun _ => Tx.leaves_pure
  · trivial

lemma transferAnswered_dated {payout : Payout} {reference : String} {transfer : Transfer} :
    (transferAnswered payout reference transfer).EachIn Dated := by
  unfold transferAnswered
  split
  · exact markSucceeded_dated
  · exact handleTransferEvent_dated
  · exact handleTransferEvent_dated
  · exact flagForOperator_dated
  · trivial

lemma hold_dated {payout : Payout} : (hold payout).EachIn Dated := by
  unfold hold
  split
  · exact dated_leaves <| Tx.leaves_now fun _ => Tx.leaves_bind payouts_dated fun _ => Tx.leaves_pure
  · trivial

lemma resolveDestination_dated {account : LedgerAccount} : (resolveDestination account).EachIn Dated := by
  unfold resolveDestination
  split
  · trivial
  · exact dated_read fun _ => trivial
  · exact dated_read fun _ => trivial
  · trivial

lemma newAttempt_dated {payout : Payout} {account : LedgerAccount} : (newAttempt payout account).EachIn Dated := by
  refine Prog.eachIn_bind resolveDestination_dated fun destination => ?_
  cases destination with
  | review reason => exact markForReview_dated
  | hold reason => exact hold_dated
  | send name bankCode accountNumber reason =>
    refine Prog.eachIn_bind (dated_leaves <| Tx.leaves_now fun _ => payouts_dated) fun count => ?_
    split
    · trivial
    · exact dated_asked fun code => Prog.eachIn_bind (dated_leaves <| Tx.leaves_now fun _ => payout_dated)
        fun _ => dated_asked fun transfer => transferAnswered_dated

lemma processPayout_dated {payoutId : Uuid} : (processPayout payoutId).EachIn Dated := by
  refine dated_read fun found => ?_
  rcases found with _ | ⟨payout, account⟩
  · trivial
  simp only
  split
  · trivial
  split
  · exact newAttempt_dated
  refine dated_asked fun previous => ?_
  cases previous with
  | success => exact markSucceeded_dated
  | pending => trivial
  | requires_action => exact flagForOperator_dated
  | failed | reversed | not_found => exact newAttempt_dated

lemma retryPayout_dated {payoutId : Uuid} : (retryPayout payoutId).EachIn Dated := by
  refine Prog.eachIn_bind (dated_leaves <| Tx.leaves_now fun _ => payouts_dated) fun count => ?_
  split
  · refine dated_read fun found => ?_
    split <;> trivial
  · refine dated_asked fun _ => dated_leaves fun w σ r σ' h => ?_
    rw [(Model.findUniqueOrThrow_ok h).2]

lemma enqueueAll_dated {ids : List Uuid} : (enqueueAll ids).EachIn Dated := by
  induction ids with
  | nil => trivial
  | cons id ids ih => exact dated_asked fun _ => ih

lemma enqueueDuePayouts_dated : enqueueDuePayouts.EachIn Dated := by
  refine Prog.eachIn_bind (dated_statement fun w s a s' hm => ?_) fun candidates =>
    dated_read fun _ => dated_read fun _ => Prog.eachIn_bind enqueueAll_dated fun _ => trivial
  rw [(sweepCandidates_ok hm).1]
  exact dated_quiet rfl

theorem program_dated (o : Operation) : o.program.EachIn Dated := by
  cases o with
  | settle reference => exact Prog.eachIn_bind settle_dated fun _ => trivial
  | processPayout payoutId => exact processPayout_dated
  | handleTransferEvent reference outcome reason => exact handleTransferEvent_dated
  | retryPayout payoutId => exact Prog.eachIn_bind retryPayout_dated fun _ => trivial
  | enqueueDuePayouts => exact Prog.eachIn_bind enqueueDuePayouts_dated fun _ => trivial

/-! ### The guest's calls -/

/-- What a statement posts, and takes back. -/
def DatedTaking (site : Site) (w : Input) (db db' : Db) : Prop := Dated site w db db' ∧ Takes site db db'

/-- A transaction that posts nothing and leaves the payouts. -/
lemma datedTaking_leaves {α : Type} {site : Site} {m : Tx α} (hpost : m.Leaves Db.postings)
    (hpay : m.Leaves Db.payouts) : (statement site m).EachIn DatedTaking := by
  refine Prog.eachIn_command (fun w s => ⟨dated_quiet rfl, fun p hp hs => .inr ⟨p, hp, rfl, hs⟩⟩)
    fun w s a s' hm => ⟨dated_quiet (hpost.run hm), fun p hp hs => .inr ⟨p, ?_, rfl, hs⟩⟩
  rw [hpay.run hm]
  exact hp

lemma datedTaking_query {α : Type} {site : Site} {f : Db → α} : (query site f : Prog App α).EachIn DatedTaking :=
  Prog.eachIn_query fun _ _ => ⟨dated_quiet rfl, fun p hp hs => .inr ⟨p, hp, rfl, hs⟩⟩

lemma createPayment_leaves {γ : Type} {f : Db → γ} (hf : ∀ db t, f { db with payments := t } = f db)
    {config : PaymentsConfig} {dto : InitializePaymentDto} {qrCode : QrCode} {splitRuleId : Uuid} :
    (createPayment config dto qrCode splitRuleId).Leaves f := by
  intro w σ a σ' h
  obtain ⟨t, -, -, -, -, hafter⟩ := createPayment_ok h
  rw [hafter]
  exact hf _ t

lemma findActiveByVenue_dated {venueId : Uuid} : (findActiveByVenue venueId).EachIn DatedTaking := by
  have hsame : ∀ {γ : Type} (f : Db → γ), (do
      let rank ← Tx.rank
      Tx.read fun db => newest ((db.splitRules.rows.insertionSort fun a b => rank a.id ≤ rank b.id).filter
        fun r => r.venueId == venueId && r.status == .ACTIVE && r.effectiveTo.isNone) :
      Tx (Option SplitRule)).Leaves f := fun f w σ a σ' h => by
    simp only [Tx.bind_ok, Tx.rank_ok, Tx.read_ok] at h
    obtain ⟨_, _, ⟨-, rfl⟩, -, rfl⟩ := h
    rfl
  refine Prog.eachIn_bind (datedTaking_leaves (hsame _) (hsame _)) fun rule => ?_
  split <;> trivial

lemma initializePayment_dated {config : PaymentsConfig} {dto : InitializePaymentDto} :
    (initializePayment config dto).EachIn DatedTaking := by
  have hsession : ∀ {γ : Type} (f : Db → γ), (do
      let now ← Tx.now
      let session ← Tx.read (findSession dto.sessionId)
      pure (session, now) : Tx (Option ScannedSession × Time)).Leaves f := fun f w σ a σ' h => by
    simp only [Tx.bind_ok, Tx.now_ok, Tx.read_ok, Tx.pure_ok] at h
    obtain ⟨_, _, ⟨-, rfl⟩, _, _, ⟨-, rfl⟩, -, rfl⟩ := h
    rfl
  refine Prog.eachIn_bind (datedTaking_leaves (hsession _) (hsession _)) fun found => ?_
  rcases found with ⟨_ | session, now⟩
  · trivial
  simp only
  split
  · trivial
  refine Prog.eachIn_bind (Prog.eachIn_attempt findActiveByVenue_dated) fun splitRule => ?_
  rcases splitRule with e | splitRule
  · trivial
  refine Prog.eachIn_bind (datedTaking_leaves (createPayment_leaves fun _ _ => rfl)
    (createPayment_leaves fun _ _ => rfl)) fun payment => ?_
  refine Prog.eachIn_bind (Prog.eachIn_attempt Prog.eachIn_request) fun init => ?_
  rcases init with e | init
  · refine Prog.eachIn_bind (datedTaking_leaves ?_ ?_) fun _ => trivial
    · exact Tx.leaves_now fun _ => Model.update_leaves fun _ _ => rfl
    · exact Tx.leaves_now fun _ => Model.update_leaves fun _ _ => rfl
  · trivial

lemma getPaymentStatus_dated {reference : String} : (getPaymentStatus reference).EachIn DatedTaking := by
  have hsettle : (settle reference).EachIn DatedTaking :=
    settle_dated.and_each (settle_each.mono fun _ _ _ => Moves.takes)
  refine Prog.eachIn_bind datedTaking_query fun existing => ?_
  rcases existing with _ | status
  · trivial
  refine Prog.eachIn_bind ?_ fun _ => Prog.eachIn_bind datedTaking_query fun found => ?_
  · unfold settleIfOpen
    split
    · exact Prog.eachIn_bind (Prog.eachIn_attempt hsettle) fun _ => trivial
    · trivial
  · split <;> trivial

theorem guest_dated {config : PaymentsConfig} (o : GuestOperation) : (o.program config).EachIn DatedTaking := by
  cases o with
  | initializePayment dto => exact Prog.eachIn_bind initializePayment_dated fun _ => trivial
  | getPaymentStatus reference => exact Prog.eachIn_bind getPaymentStatus_dated fun _ => trivial
  | service o => exact (program_dated o).and_each (program_each o)

end Splitcore.Money
