import Splitcore.Money.Attempted

/-!
The attempt limit: what a run that handles a transfer event has to do about a payout that has had all its
automatic attempts.
-/

namespace Splitcore.Money

open Relational Interleaving Ledger

/-! ### Duties -/

/-- What a run that handles a transfer event found; or that it put back a payout at the limit, and leaves it
to a person next. -/
inductive Duty where
  | off
  | found (payout : Payout)
  | review (payoutId : Uuid)

namespace Duty

def isReview : Duty → Bool
  | review _ => true
  | _ => false

/-- The last attempt of the payout was rejected, or was returned. -/
def rejected : Duty → Duty
  | found p => if MAX_AUTOMATIC_TRANSFER_ATTEMPTS ≤ p.attempts then review p.id else off
  | _ => off

def next (g : Duty) : Did App → Duty
  | .stmt (.handleTransferEventFind reference) _ s _ =>
    (s.payouts.find (·.transferReference == some reference)).elim off found
  | .stmt (.handleTransferEventRetrying _) _ _ _ => g.rejected
  | .stmt (.handleTransferEventReversed _) _ s s' =>
    if s'.postings.length = s.postings.length then off else g.rejected
  | _ => off

end Duty

def dutyIn (log : List (Did App)) : Duty := log.foldl Duty.next .off

/-- Left to a person, or paid. -/
def Rests (status : PayoutStatus) : Prop := status = .FAILED ∨ status = .SUCCESS

/-- What a run with the duty `g` may execute. -/
structure Dutiful (g : Duty) (site : Site) (w : Input) (s s' : Db) : Prop where
  due : ∀ payoutId, g = .review payoutId → site = .markForReview payoutId
  reviewed : ∀ payoutId, site = .markForReview payoutId →
    ∀ row ∈ s'.payouts.rows, row.id = payoutId → Rests row.status
  /-- Only the payout that was found is put back, and only at the attempt it was found at. -/
  putBack : ∀ payoutId, site = .handleTransferEventRetrying payoutId ∨
    site = .handleTransferEventReversed payoutId → ∀ row ∈ s.payouts.rows, row.id = payoutId →
    row ∈ s'.payouts.rows ∨ ∃ q, g = .found q ∧ q.id = payoutId ∧ q.attempts = row.attempts ∧
      g.next (.stmt site w s s') = g.rejected

/-- A run that put back a payout at the limit does nothing before it left it to a person. -/
def duties (L : Type) : Monitor App L where
  State := Duty
  init _ _ := .off
  next := Duty.next
  rely _ _ s := RefsAgree s
  guar := Dutiful
  query g _ := g.isReview = false
  post g _ := g.isReview = false

/-! ### Programs that handle no event -/

/-- The statements that handle a transfer event, or leave a payout to a person. -/
def handles : Site → Bool
  | .handleTransferEventFind _ | .handleTransferEventRetrying _ | .handleTransferEventReversed _
  | .markForReview _ => true
  | _ => false

section Quiet

variable {L α β : Type} {site : Site}

/-- None of its statements handles an event. -/
abbrev Quiet (p : Prog App α) : Prop :=
  p.Spares (fun site => handles site = false) (fun _ => True) fun _ => ()

lemma quiet_statement {m : Tx α} (hsite : handles site = false) : Quiet (statement site m) :=
  Prog.spares_command hsite fun _ _ _ _ _ => rfl

lemma quiet_read {f : Db → α} {k : α → Prog App β} (hsite : handles site = false) (hk : ∀ a, Quiet (k a)) :
    Quiet (query site f >>= k) :=
  Prog.spares_bind (Prog.spares_query hsite) hk

lemma quiet_ask {q : Ask} {k : Ans q → Prog App β} (hk : ∀ a, Quiet (k a)) : Quiet (request q >>= k) :=
  Prog.spares_bind (Prog.spares_request trivial) hk

lemma dutiful_other {g : Duty} {w : Input} {s s' : Db} (hsite : handles site = false) (hg : g.isReview = false) :
    Dutiful g site w s s' := by
  refine ⟨fun payoutId h => ?_, fun payoutId h => ?_, fun payoutId h => ?_⟩
  · rw [h] at hg
    cases hg
  · rw [h] at hsite
    cases hsite
  · rcases h with h | h <;> rw [h] at hsite <;> cases hsite

lemma next_other {g : Duty} {w : Input} {s s' : Db} (hsite : handles site = false) :
    g.next (.stmt site w s s') = .off := by
  cases site <;> first | rfl | cases hsite

/-- What is due has been done when the program ends. -/
abbrev Done (L : Type) (p : Prog App α) (g : Duty) : Prop := Obeys (duties L) (fun g _ => g.isReview = false) p g

lemma Quiet.done {p : Prog App α} {g : Duty} (h : Quiet p) (hg : g.isReview = false) : Done L p g := by
  refine obeys_of_spares (M := duties L) (I := fun g => g.isReview = false) h
    (fun g site w s s' hg hsite _ => ⟨dutiful_other hsite hg, ?_⟩) (fun g site e hg _ => rfl)
    (fun g q hg _ => ⟨hg, rfl⟩) (fun g q a hg _ => rfl) hg
  exact congrArg Duty.isReview (next_other hsite)

lemma Quiet.bind {p : Prog App α} {k : α → Prog App β} (h : Quiet p) (hk : ∀ a, Done L (k a) .off) :
    Done L (p >>= k) .off := by
  have hobeys : Obeys (duties L) (fun g _ => g = .off) p .off :=
    obeys_of_spares (M := duties L) (I := fun g => g = .off) h
      (fun g site w s s' hg hsite _ => ⟨dutiful_other hsite (by rw [hg]; rfl), next_other hsite⟩)
      (fun g site e hg _ => rfl) (fun g q hg _ => ⟨by rw [hg]; rfl, rfl⟩) (fun g q a hg _ => rfl) rfl
  refine obeys_bind.mpr (hobeys.mono fun g r hg => ?_)
  rw [hg]
  rcases r with e | a
  · rfl
  · exact hk a

lemma reload_quiet {id : Uuid} : Quiet (some <$> reload id) :=
  Prog.spares_bind (quiet_statement rfl) fun _ => trivial

lemma enqueuePayouts_quiet {ids : List Uuid} : Quiet (enqueuePayouts ids) := by
  induction ids with
  | nil => trivial
  | cons id ids ih => exact Prog.spares_bind (Prog.spares_attempt (Prog.spares_request trivial)) fun _ => ih

lemma settleVerified_quiet {reference : String} {payment : PaymentTransaction} :
    Quiet (settleVerified reference payment) := by
  unfold settleVerified
  split
  · trivial
  refine Prog.spares_bind (quiet_statement rfl) fun rule => Prog.spares_bind Prog.spares_ofExcept fun entries => ?_
  refine Prog.spares_bind (quiet_statement rfl) fun o => ?_
  rcases o with _ | ids
  · exact reload_quiet
  · exact Prog.spares_bind enqueuePayouts_quiet fun _ => reload_quiet

lemma settle_quiet {reference : String} : Quiet (settle reference) := by
  refine quiet_read rfl fun found => ?_
  rcases found with _ | payment
  · trivial
  simp only
  split
  · trivial
  refine quiet_ask fun verification => ?_
  split
  · exact Prog.spares_bind (quiet_statement rfl) fun _ => reload_quiet
  · exact Prog.spares_bind (quiet_statement rfl) fun _ => reload_quiet
  · exact Prog.spares_bind (quiet_statement rfl) fun _ => reload_quiet
  · split
    · trivial
    · exact settleVerified_quiet

lemma markSucceeded_quiet {payoutId : Uuid} {reference : String} : Quiet (markSucceeded payoutId reference) := by
  refine quiet_read rfl fun found => ?_
  rcases found with _ | ⟨payout, account⟩
  · trivial
  · exact Prog.spares_bind Prog.spares_ofExcept fun entries =>
      Prog.spares_bind (quiet_statement rfl) fun _ => trivial

lemma flagForOperator_quiet {payoutId : Uuid} : Quiet (flagForOperator payoutId) := quiet_statement rfl

lemma resolveDestination_quiet {account : LedgerAccount} : Quiet (resolveDestination account) := by
  unfold resolveDestination
  split
  · trivial
  · exact quiet_read rfl fun _ => trivial
  · exact quiet_read rfl fun _ => trivial
  · trivial

lemma hold_quiet {payout : Payout} : Quiet (hold payout) := by
  unfold hold
  split
  · exact quiet_statement rfl
  · trivial

lemma retryPayout_quiet {payoutId : Uuid} : Quiet (retryPayout payoutId) := by
  refine Prog.spares_bind (quiet_statement rfl) fun count => ?_
  split
  · refine quiet_read rfl fun found => ?_
    cases found <;> trivial
  · exact quiet_ask fun _ => quiet_statement rfl

lemma enqueueAll_quiet {ids : List Uuid} : Quiet (enqueueAll ids) := by
  induction ids with
  | nil => trivial
  | cons id ids ih => exact quiet_ask fun _ => ih

lemma enqueueDuePayouts_quiet : Quiet enqueueDuePayouts :=
  Prog.spares_bind (quiet_statement rfl) fun _ => quiet_read rfl fun _ => quiet_read rfl fun _ =>
    Prog.spares_bind enqueueAll_quiet fun _ => trivial

end Quiet

/-! ### Programs that handle an event -/

section Handling

variable {L α β : Type} {g : Duty} {site : Site} {w : Input} {s s' : Db}

lemma done_read {f : Db → α} {k : α → Prog App β}
    (h : ∀ w s, RefsAgree s → Dutiful g site w s s ∧ Done L (k (f s)) (g.next (.stmt site w s s))) :
    Done L (query site f >>= k) g :=
  obeys_bind.mpr ⟨fun w s hrefs => ⟨(h w s hrefs).1, (h w s hrefs).2, fun _ => rfl⟩, fun _ => rfl⟩

lemma done_statement {m : Tx α} {k : α → Prog App β}
    (hok : ∀ w s a s', RefsAgree s → m.run w s = .ok (a, s') →
      Dutiful g site w s s' ∧ Done L (k a) (g.next (.stmt site w s s')))
    (herr : ∀ w s e, m.run w s = .error e →
      Dutiful g site w s s ∧ (g.next (.stmt site w s s)).isReview = false) :
    Done L (statement site m >>= k) g :=
  obeys_bind.mpr <| obeys_tried hok (fun w s e _ hm => herr w s e hm) (fun _ _ _ _ => rfl) fun _ => rfl

/-- An update of payouts that leaves their keys does not fail by itself. -/
lemma touch_ne_error {guard : Payout → Bool} {update : Time → Payout → Payout} {e : Err}
    (hkeys : ∀ now p, Indexed.keys (update now p) = Indexed.keys p) :
    Tx.run (do
      let now ← Tx.now
      let _ ← Model.payout.updateMany guard (update now)
      pure ()) w s ≠ .error e := by
  intro hm
  obtain ⟨n, σ', hok⟩ := Model.updateMany_of_keys (M := Model.payout) (w := w) (σ := (s, 0)) (p := guard)
    (f := update w.now) fun p _ => hkeys w.now p
  have herr := Tx.run_error.mp hm
  simp only [Tx.bind_error] at herr
  rcases herr with herr | ⟨t, σ₁, hnow, herr | ⟨c, σ₂, -, herr⟩⟩
  · cases herr
  · obtain ⟨rfl, rfl⟩ := Tx.now_ok.mp hnow
    rw [hok] at herr
    cases herr
  · cases herr

lemma markForReview_done {payoutId : Uuid} {reason : String}
    (hg : ∀ id, g = .review id → id = payoutId) : Done L (markForReview payoutId reason) g := by
  have hdue : ∀ id, g = .review id → Site.markForReview payoutId = .markForReview id :=
    fun id h => by rw [hg id h]
  refine obeys_tried (fun w s a s' _ hm => ⟨⟨hdue, ?_, fun id h => ?_⟩, rfl⟩) (fun w s e _ hm => ?_)
    (fun w s s' e => rfl) fun e => rfl
  · obtain ⟨n, h⟩ := Tx.run_ok.mp hm
    simp only [Tx.bind_ok, Tx.now_ok, Tx.pure_ok] at h
    obtain ⟨_, _, ⟨rfl, rfl⟩, c, σ₁, hupd, -, rfl⟩ := h
    obtain ⟨-, t, ht, hafter⟩ := Model.updateMany_ok hupd
    obtain rfl : s' = { s with payouts := t } := congrArg Prod.fst hafter
    rintro _ ⟨⟩ row hrow hid
    obtain ⟨row₀, -, rfl⟩ := (mem_update ht).mp hrow
    split at hid
    · rename_i hguard
      rw [if_pos hguard]
      exact .inl rfl
    · rename_i hguard
      rw [if_neg hguard]
      simp only [Bool.and_eq_true, beq_iff_eq, bne_iff_ne, not_and, not_not] at hguard
      exact .inr (hguard hid)
  · rcases h with h | h <;> cases h
  · exact absurd hm (touch_ne_error fun _ _ => rfl)

lemma retryOrReview_done {payout : Payout} {outcome : TransferOutcome} {reason : Option String} :
    Done L (retryOrReview payout outcome reason) (Duty.found payout).rejected := by
  unfold retryOrReview
  simp only [Duty.rejected]
  split
  · exact markForReview_done fun id h => (Duty.review.inj h).symm
  · exact Quiet.done (Prog.spares_request trivial) rfl

lemma retryOrReview_off {payout : Payout} {outcome : TransferOutcome} {reason : Option String} :
    Done L (retryOrReview payout outcome reason) .off := by
  unfold retryOrReview
  split
  · exact markForReview_done nofun
  · exact Quiet.done (Prog.spares_request trivial) rfl

/-- A reference is that of one attempt. -/
lemma attempts_of_reference {p q : Payout} {reference : String} (hp : p.transferReference = some reference)
    (hq : q.transferReference = some reference) (hpa : p.transferReference = referenceAt p.id p.attempts)
    (hqa : q.transferReference = referenceAt q.id q.attempts) : p.attempts = q.attempts := by
  have hnew : ∀ {r : Payout}, r.transferReference = some reference →
      r.transferReference = referenceAt r.id r.attempts → reference = transferReference r.id r.attempts := by
    intro r hr hra
    rw [hr, referenceAt] at hra
    split at hra
    · cases hra
    · exact Option.some.inj hra
  exact (transferReference_inj.mp ((hnew hp hpa).symm.trans (hnew hq hqa))).2

variable {payout : Payout} {reference : String} {outcome : TransferOutcome} {reason : Option String}

lemma retrying_done {k : Unit → Prog App β} (href : payout.transferReference = some reference)
    (hagree : payout.transferReference = referenceAt payout.id payout.attempts)
    (hk : Done L (k ()) (Duty.found payout).rejected) :
    Done L (retrying payout.id reference outcome reason >>= k) (.found payout) := by
  refine done_statement (fun w s a s' hrefs hm => ⟨⟨nofun, nofun, fun id h row hrow hid => ?_⟩, hk⟩)
    fun w s e hm => ?_
  · obtain rfl : payout.id = id := by
      rcases h with h | h
      · exact Site.handleTransferEventRetrying.inj h
      · cases h
    obtain ⟨n, hm⟩ := Tx.run_ok.mp hm
    simp only [Tx.bind_ok, Tx.now_ok, Tx.pure_ok] at hm
    obtain ⟨_, _, ⟨rfl, rfl⟩, c, σ₁, hupd, -, rfl⟩ := hm
    obtain ⟨-, t, ht, hafter⟩ := Model.updateMany_ok hupd
    obtain rfl : s' = { s with payouts := t } := congrArg Prod.fst hafter
    by_cases hguard : (row.id == payout.id && row.transferReference == some reference && row.status != .SUCCESS) = true
    · simp only [Bool.and_eq_true, beq_iff_eq] at hguard
      exact .inr ⟨payout, rfl, rfl, attempts_of_reference href hguard.1.2 hagree (hrefs row hrow), rfl⟩
    · exact .inl ((mem_update ht).mpr ⟨row, hrow, if_neg hguard⟩)
  · exact absurd hm (touch_ne_error fun _ _ => rfl)

/-- A claim that posted says so. -/
lemma claimAndPost_false {guard : Payout → Bool} {update : Payout → Payout} {origin : Origin}
    {transactionId : Uuid} {entries : List LedgerEntrySpec} {n : ℕ}
    (h : claimAndPost guard update origin transactionId entries w (s, 0) = .ok (false, s', n)) : s' = s := by
  simp only [claimAndPost, Tx.bind_ok] at h
  obtain ⟨count, σ₁, hclaim, h⟩ := h
  split at h
  · rename_i hzero
    subst hzero
    rw [Model.updateMany_zero hclaim] at h
    exact (congrArg Prod.fst (Tx.pure_ok.mp h).2).symm
  · simp at h

lemma reversed_done {transactionId : Uuid} {entries : List LedgerEntrySpec} {k : Bool → Prog App β}
    (href : payout.transferReference = some reference)
    (hagree : payout.transferReference = referenceAt payout.id payout.attempts)
    (hk : Done L (k true) (Duty.found payout).rejected) (hoff : ∀ b, Done L (k b) .off) :
    Done L (statement (.handleTransferEventReversed payout.id)
      (reversedTransaction payout.id reference reason transactionId entries) >>= k) (.found payout) := by
  have hsame : ∀ w s, Duty.next (.found payout) (.stmt (.handleTransferEventReversed payout.id) w s s) = .off :=
    fun w s => if_pos rfl
  have hstays : ∀ w s, Dutiful (.found payout) (.handleTransferEventReversed payout.id) w s s :=
    fun w s => ⟨nofun, nofun, fun _ _ _ hrow _ => .inl hrow⟩
  refine done_statement (fun w s b s' hrefs hm => ?_) fun w s e hm => ⟨hstays w s, by rw [hsame]; rfl⟩
  · obtain ⟨n, hm⟩ := Tx.run_ok.mp hm
    simp only [reversedTransaction, Tx.bind_ok, Tx.now_ok] at hm
    obtain ⟨_, _, ⟨rfl, rfl⟩, hm⟩ := hm
    rcases claimAndPost_ok hm with ⟨rfl, -⟩ | ⟨found, -, -, payouts', accounts', es, hupd, -, hafter, -⟩
    · refine ⟨hstays w s', ?_⟩
      rw [hsame]
      exact hoff b
    have hpostings : s'.postings.length ≠ s.postings.length := by
      rw [hafter]
      simp
    have hnext : Duty.next (.found payout) (.stmt (.handleTransferEventReversed payout.id) w s s') =
        (Duty.found payout).rejected := if_neg hpostings
    refine ⟨⟨nofun, nofun, fun id h row hrow hid => ?_⟩, ?_⟩
    · obtain rfl : payout.id = id := by
        rcases h with h | h
        · cases h
        · exact Site.handleTransferEventReversed.inj h
      have hpayouts : s'.payouts = payouts' := congrArg Db.payouts hafter
      by_cases hguard : (row.id == payout.id && row.status == .SUCCESS && row.transferReference == some reference) = true
      · simp only [Bool.and_eq_true, beq_iff_eq] at hguard
        exact .inr ⟨payout, rfl, rfl, attempts_of_reference href hguard.2 hagree (hrefs row hrow), hnext⟩
      · exact .inl ((mem_update (hpayouts ▸ hupd)).mpr ⟨row, hrow, if_neg hguard⟩)
    · rw [hnext]
      rcases b with _ | _
      · exact absurd (by rw [claimAndPost_false hm]) hpostings
      · exact hk

theorem handleTransferEvent_done : Done L (handleTransferEvent reference outcome reason) .off := by
  refine done_read fun w s hrefs => ⟨⟨nofun, nofun, nofun⟩, ?_⟩
  rcases hfound : payoutWithAccount (·.transferReference == some reference) s with _ | ⟨payout, account⟩
  · show (Duty.next _ _).isReview = false
    simp only [Duty.next]
    cases s.payouts.find (·.transferReference == some reference) <;> rfl
  have hfind := payoutWithAccount_find hfound
  have href : payout.transferReference = some reference := by simpa using Table.of_find hfind
  have hagree := hrefs payout (Table.mem_of_find hfind)
  have hstate : Duty.next .off (.stmt (.handleTransferEventFind reference) w s s) = .found payout := by
    simp only [Duty.next, hfind, Option.elim_some]
  rw [hstate]
  simp only
  split
  · exact markSucceeded_quiet.done rfl
  split
  · refine obeys_bind.mpr (obeys_ofExcept.mpr ?_)
    rcases computePayoutReversalEntries (payoutForPosting payout account) with e | entries
    · rfl
    refine reversed_done href hagree retryOrReview_done fun b => ?_
    split
    · exact retryOrReview_off
    · rfl
  split
  · exact retrying_done href hagree retryOrReview_done
  · rfl

lemma transferAnswered_done {transfer : Transfer} : Done L (transferAnswered payout reference transfer) .off := by
  unfold transferAnswered
  split
  · exact markSucceeded_quiet.done rfl
  · exact handleTransferEvent_done
  · exact handleTransferEvent_done
  · exact flagForOperator_quiet.done rfl
  · rfl

lemma newAttempt_done {account : LedgerAccount} : Done L (newAttempt payout account) .off := by
  refine resolveDestination_quiet.bind fun destination => ?_
  cases destination with
  | review reason => exact markForReview_done nofun
  | hold reason => exact hold_quiet.done rfl
  | send name bankCode accountNumber reason =>
    refine (quiet_statement (m := _) rfl).bind fun count => ?_
    split
    · rfl
    refine Quiet.bind (p := request _) (Prog.spares_request trivial) fun code => ?_
    refine (quiet_statement (m := _) rfl).bind fun _ => ?_
    exact Quiet.bind (p := request _) (Prog.spares_request trivial) fun transfer => transferAnswered_done

theorem processPayout_done {payoutId : Uuid} : Done L (processPayout payoutId) .off := by
  refine Quiet.bind (p := query _ _) (Prog.spares_query rfl) fun found => ?_
  rcases found with _ | ⟨payout, account⟩
  · rfl
  simp only
  split
  · rfl
  split
  · exact newAttempt_done
  refine Quiet.bind (p := request _) (Prog.spares_request trivial) fun previous => ?_
  cases previous with
  | success => exact markSucceeded_quiet.done rfl
  | pending => rfl
  | requires_action => exact flagForOperator_quiet.done rfl
  | failed | reversed | not_found => exact newAttempt_done

/-- **Every call does what it has to about a payout at the limit.** -/
theorem program_done (o : Operation) : Done L o.program .off := by
  cases o with
  | settle reference => exact settle_quiet.bind fun _ => rfl
  | processPayout payoutId => exact processPayout_done
  | handleTransferEvent reference outcome reason => exact handleTransferEvent_done
  | retryPayout payoutId => exact retryPayout_quiet.bind fun _ => rfl
  | enqueueDuePayouts => exact enqueueDuePayouts_quiet.bind fun _ => rfl

end Handling

end Splitcore.Money
