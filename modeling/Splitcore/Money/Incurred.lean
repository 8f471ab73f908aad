import Splitcore.Money.Quoted

/-!
What each program adds to the books: which payments it settles, and that nothing is owed but for a settlement.
-/

namespace Splitcore.Money

open Relational Interleaving Ledger

/-! ### What a statement adds to the books -/

/-- At most one posting is added, and what is newly owed is owed for a settlement that is. -/
def Incurs (s s' : Db) : Prop := ∃ pos : List Posting, s'.postings = s.postings ++ pos ∧ pos.length ≤ 1 ∧
  ∀ payout ∈ s'.payouts.rows, obligation payout ∈ s.payouts.rows.map obligation ∨
    ∃ po ∈ pos, po.origin = .settlement ∧ po.transactionId = payout.transactionId

variable {L : Type} {s s' g : Db} {config : PaymentsConfig} {dto : InitializePaymentDto}

lemma incurs_quiet (hpost : s'.postings = s.postings)
    (hpay : s'.payouts.rows.map obligation = s.payouts.rows.map obligation) : Incurs s s' :=
  ⟨[], by rw [hpost, List.append_nil], Nat.zero_le 1, fun _ hp => .inl (hpay ▸ List.mem_map_of_mem hp)⟩

lemma change_incurs (h : Change s s') : Incurs s s' := by
  cases h with
  | same => exact incurs_quiet rfl rfl
  | payments => exact incurs_quiet rfl rfl
  | created => exact incurs_quiet rfl rfl
  | payouts guard update t ht hkeeps => exact incurs_quiet rfl (Table.map_update hkeeps ht)
  | settled c =>
    have hpayouts : s'.payouts.rows = s.payouts.rows ++ c.payouts :=
      (congrArg (fun d : Db => d.payouts.rows) c.after).trans c.payouts_rows
    refine ⟨[⟨.settlement, c.payment.id, c.entries⟩], congrArg Db.postings c.after, le_refl 1, fun payout hp => ?_⟩
    rw [hpayouts, List.mem_append] at hp
    rcases hp with hp | hp
    · exact .inl (List.mem_map_of_mem hp)
    · obtain ⟨spec, -, howes⟩ := exists_of_forall₂ c.owed (List.mem_map_of_mem hp)
      exact .inr ⟨_, List.mem_cons_self, rfl, howes.1.symm⟩
  | moved back m =>
    have hpayouts : s'.payouts.rows.map obligation = s.payouts.rows.map obligation := by
      rw [congrArg (fun d : Db => d.payouts.rows) m.after]
      exact Table.map_update m.keeps m.updated
    exact ⟨_, congrArg Db.postings m.after, le_refl 1, fun _ hp => .inl (hpayouts ▸ List.mem_map_of_mem hp)⟩

abbrev Incurring (L : Type) {α : Type} (prog : Prog App α) (g : Db) : Prop :=
  Obeys (relyGuarantee Keeps Incurs (fun _ _ => True) L) (fun _ _ => True) prog g

lemma incurring_of_sound {α : Type} {prog : Prog App α} (h : Sound (fun _ _ => True) L prog g) :
    Incurring L prog g :=
  obeys_wider (fun _ _ => change_incurs) h

/-- The error path of a checkout adds nothing, whatever it meets. -/
lemma failPayment_incurring {id : Uuid} : Incurring L (failPayment id) g := by
  refine obeys_command (fun w s a s' _ hm => ?_) (fun w s e _ _ => ⟨.refl s, incurs_quiet rfl rfl⟩)
    fun _ _ => trivial
  rw [Tx.run_now] at hm
  obtain ⟨n, hm⟩ := Tx.run_ok.mp hm
  obtain ⟨t, ht, hs⟩ := Model.update_ok hm
  obtain rfl : s' = { s with payments := t } := congrArg Prod.fst hs
  have hquoted : ∀ p : PaymentTransaction,
      quoted { p with status := .FAILED, updatedAt := w.now } = quoted p := fun _ => rfl
  exact ⟨⟨{ Keeps.refl s with payments := (Table.map_update hquoted ht).symm ▸ List.prefix_rfl },
    incurs_quiet rfl rfl⟩, trivial⟩

lemma initializePayment_incurring : Incurring L (initializePayment config dto) g := by
  refine obeys_bind.mpr (obeys_command (fun w s found s' _ hm => ?_)
    (fun w s e _ _ => ⟨.refl s, incurs_quiet rfl rfl⟩) fun _ _ => trivial)
  obtain rfl := findSession_run hm
  refine ⟨⟨.refl _, incurs_quiet rfl rfl⟩, ?_⟩
  rcases found with ⟨_ | session, now⟩
  · trivial
  dsimp only
  split
  · trivial
  refine obeys_then (obeys_attempt.mpr (incurring_of_sound findActiveByVenue_sound)) fun splitRule g => ?_
  rcases splitRule with e | splitRule
  · trivial
  refine obeys_then (obeys_command (fun w s payment s' _ hm => ?_)
    (fun w s e _ _ => ⟨.refl s, incurs_quiet rfl rfl⟩) fun _ _ => trivial) fun payment g => ?_
  · have hchange := createPayment_change hm
    exact ⟨⟨hchange.keeps, change_incurs hchange⟩, trivial⟩
  refine obeys_then (obeys_attempt.mpr (obeys_request trivial fun _ => trivial)) fun init g => ?_
  rcases init with e | init
  · exact obeys_then failPayment_incurring fun _ _ => trivial
  · trivial

lemma guestProgram_incurring (o : GuestOperation) : Incurring L (o.program config) g := by
  cases o with
  | initializePayment dto => exact obeys_then initializePayment_incurring fun _ _ => trivial
  | getPaymentStatus reference =>
    exact incurring_of_sound (sound_bind getPaymentStatus_sound fun _ _ => sound_ret)
  | service o => exact incurring_of_sound (program_sound o)

/-! ### Which payments a program settles -/

/-- It settles no payment but this one. -/
def Settles (only : Option Uuid) {α : Type} (prog : Prog App α) : Prop :=
  prog.Each fun (site : Site) _ _ => ∀ id, site = .settleTransaction id → only = some id

section Settles

variable {α : Type} {only : Option Uuid} {site : Site} {payoutId : Uuid} {payout : Payout} {reason : Option String}
  {reference : String} {outcome : TransferOutcome} {account : LedgerAccount}

lemma settles_statement {m : Tx α} (h : ∀ id, site ≠ .settleTransaction id) : Settles only (statement site m) :=
  Prog.each_command (fun _ id hsite => absurd hsite (h id)) fun _ _ _ _ _ id hsite => absurd hsite (h id)

lemma settles_query {f : Db → α} (h : ∀ id, site ≠ .settleTransaction id) : Settles only (query site f) :=
  Prog.each_query fun _ id hsite => absurd hsite (h id)

lemma reload_settles {id : Uuid} : Settles only (some <$> reload id) :=
  Prog.each_bind (settles_statement nofun) fun _ => trivial

lemma transition_settles {id : Uuid} {source : List PaymentStatus} {target : PaymentStatus} :
    Settles only (transition id source target) :=
  settles_statement nofun

lemma enqueuePayouts_settles {ids : List Uuid} : Settles only (enqueuePayouts ids) := by
  induction ids with
  | nil => trivial
  | cons id ids ih => exact Prog.each_bind (Prog.each_attempt Prog.each_request) fun _ => ih

lemma settleVerified_settles {payment : PaymentTransaction} :
    Settles (some payment.id) (settleVerified reference payment) := by
  unfold settleVerified
  split
  · trivial
  refine Prog.each_bind (settles_statement nofun) fun rule => Prog.each_bind Prog.each_ofExcept fun entries => ?_
  refine Prog.each_bind ?_ fun settled => ?_
  · exact Prog.each_command (fun _ id hsite => by rw [Site.settleTransaction.inj hsite])
      fun _ _ _ _ _ id hsite => by rw [Site.settleTransaction.inj hsite]
  · cases settled
    · exact reload_settles
    · exact Prog.each_bind enqueuePayouts_settles fun _ => reload_settles

lemma markSucceeded_settles : Settles none (markSucceeded payoutId reference) := by
  refine Prog.each_bind (settles_query nofun) fun found => ?_
  rcases found with _ | ⟨payout, account⟩
  · trivial
  · exact Prog.each_bind Prog.each_ofExcept fun _ => Prog.each_bind (settles_statement nofun) fun _ => trivial

lemma retryOrReview_settles : Settles none (retryOrReview payout outcome reason) := by
  unfold retryOrReview
  split
  · exact settles_statement nofun
  · exact Prog.each_request

lemma handleTransferEvent_settles : Settles none (handleTransferEvent reference outcome reason) := by
  refine Prog.each_bind (settles_query nofun) fun found => ?_
  rcases found with _ | ⟨payout, account⟩
  · trivial
  dsimp only
  split
  · exact markSucceeded_settles
  split
  · refine Prog.each_bind Prog.each_ofExcept fun _ => Prog.each_bind (settles_statement nofun) fun _ => ?_
    split
    · exact retryOrReview_settles
    · trivial
  split
  · exact Prog.each_bind (settles_statement nofun) fun _ => retryOrReview_settles
  · trivial

lemma transferAnswered_settles {transfer : Transfer} : Settles none (transferAnswered payout reference transfer) := by
  unfold transferAnswered
  split
  · exact markSucceeded_settles
  · exact handleTransferEvent_settles
  · exact handleTransferEvent_settles
  · exact settles_statement nofun
  · trivial

lemma hold_settles : Settles none (hold payout) := by
  unfold hold
  split
  · exact settles_statement nofun
  · trivial

lemma resolveDestination_settles : Settles none (resolveDestination account) := by
  unfold resolveDestination
  split
  · trivial
  · exact Prog.each_bind (settles_query nofun) fun _ => trivial
  · exact Prog.each_bind (settles_query nofun) fun _ => trivial
  · trivial

lemma newAttempt_settles : Settles none (newAttempt payout account) := by
  refine Prog.each_bind resolveDestination_settles fun destination => ?_
  rcases destination with _ | _ | _
  · refine Prog.each_bind (settles_statement nofun) fun count => ?_
    split
    · trivial
    · exact Prog.each_bind Prog.each_request fun _ => Prog.each_bind (settles_statement nofun) fun _ =>
        Prog.each_bind Prog.each_request fun _ => transferAnswered_settles
  · exact hold_settles
  · exact settles_statement nofun

lemma processPayout_settles : Settles none (processPayout payoutId) := by
  refine Prog.each_bind (settles_query nofun) fun found => ?_
  rcases found with _ | ⟨payout, account⟩
  · trivial
  dsimp only
  split
  · trivial
  split
  · exact newAttempt_settles
  refine Prog.each_bind Prog.each_request fun previous => ?_
  split
  · exact markSucceeded_settles
  · trivial
  · exact settles_statement nofun
  · exact newAttempt_settles
  · exact newAttempt_settles
  · exact newAttempt_settles

lemma retryPayout_settles : Settles none (retryPayout payoutId) := by
  refine Prog.each_bind (settles_statement nofun) fun count => ?_
  split
  · refine Prog.each_bind (settles_query nofun) fun found => ?_
    split <;> trivial
  · exact Prog.each_bind Prog.each_request fun _ => settles_statement nofun

lemma enqueueAll_settles {ids : List Uuid} : Settles none (enqueueAll ids) := by
  induction ids with
  | nil => trivial
  | cons id ids ih => exact Prog.each_bind Prog.each_request fun _ => ih

lemma enqueueDuePayouts_settles : Settles none enqueueDuePayouts :=
  Prog.each_bind (settles_statement nofun) fun _ => Prog.each_bind (settles_query nofun) fun _ =>
    Prog.each_bind (settles_query nofun) fun _ => Prog.each_bind enqueueAll_settles fun _ => trivial

lemma initializePayment_settles : Settles none (initializePayment config dto) := by
  refine Prog.each_bind (settles_statement nofun) fun found => ?_
  rcases found with ⟨_ | session, now⟩
  · trivial
  dsimp only
  split
  · trivial
  refine Prog.each_bind (Prog.each_attempt (Prog.each_bind (settles_statement nofun) fun rule => ?_))
    fun splitRule => ?_
  · split <;> trivial
  rcases splitRule with e | splitRule
  · trivial
  refine Prog.each_bind (settles_statement nofun) fun payment =>
    Prog.each_bind (Prog.each_attempt Prog.each_request) fun init => ?_
  rcases init with e | init
  · exact Prog.each_bind (settles_statement nofun) fun _ => trivial
  · trivial

end Settles

end Splitcore.Money
