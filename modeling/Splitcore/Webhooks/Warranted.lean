import Splitcore.Providers.Wired
import Splitcore.Webhooks.Authentic

/-!
On whose word a payout is `SUCCESS`: Paystack's, in a response to the run that says so or in a signed event.
-/

namespace Splitcore.Webhooks

open Relational Interleaving Ledger Money Providers

/-! ### What a statement makes `SUCCESS` -/

/-- It was `SUCCESS` already, for the reference it has. -/
def Was (s : Db) (p' : Payout) : Prop :=
  ∃ p ∈ s.payouts.rows, p.id = p'.id ∧ p.status = .SUCCESS ∧ p.transferReference = p'.transferReference

/-- A payout that is `SUCCESS` afterwards was so before, or is so for a reference of `R`. -/
def Succeeds (R : String → Prop) (s s' : Db) : Prop := ∀ p' ∈ s'.payouts.rows, p'.status = .SUCCESS →
  Was s p' ∨ ∃ reference, p'.transferReference = some reference ∧ R reference

section Statements

variable {R R' : String → Prop} {s s' : Db} {w : Input} {σ σ' : Db × ℕ} {α : Type} {site : Site}

lemma Succeeds.mono (h : Succeeds R s s') (hR : ∀ reference, R reference → R' reference) : Succeeds R' s s' :=
  fun p' hp' hsuccess => (h p' hp' hsuccess).imp_right fun ⟨reference, href, hr⟩ => ⟨reference, href, hR _ hr⟩

lemma succeeds_same (h : s'.payouts = s.payouts) : Succeeds R s s' :=
  fun p' hp' hsuccess => .inl ⟨p', h ▸ hp', rfl, hsuccess, rfl⟩

/-- What an update may make of a row it selects. -/
def MaySucceed (R : String → Prop) (p p' : Payout) : Prop := p'.status = .SUCCESS →
  p.id = p'.id ∧ p.status = .SUCCESS ∧ p.transferReference = p'.transferReference ∨
    ∃ reference, p'.transferReference = some reference ∧ R reference

lemma succeeds_update {guard : Payout → Bool} {update : Payout → Payout}
    (ht : s.payouts.update guard update = some s'.payouts)
    (h : ∀ p, guard p = true → MaySucceed R p (update p)) : Succeeds R s s' := by
  intro p' hp' hsuccess
  rw [Table.rows_update ht, List.mem_map] at hp'
  obtain ⟨p, hp, rfl⟩ := hp'
  by_cases hg : guard p = true
  · rw [if_pos hg] at hsuccess ⊢
    rcases h p hg hsuccess with hsame | hr
    · exact .inl ⟨p, hp, hsame⟩
    · exact .inr hr
  · rw [if_neg hg] at hsuccess ⊢
    exact .inl ⟨p, hp, rfl, hsuccess, rfl⟩

/-- What a statement of the services does, to payouts and to nothing of the webhooks'. -/
structure Delivered (R : String → Prop) (s s' : Db) : Prop where
  events : s'.webhookEvents = s.webhookEvents
  payouts : Succeeds R s s'

lemma delivered_update {guard : Payout → Bool} {update : Payout → Payout} {t : Table Payout}
    (ht : s.payouts.update guard update = some t) (hafter : s' = { s with payouts := t })
    (h : ∀ p, guard p = true → MaySucceed R p (update p)) : Delivered R s s' := by
  subst hafter
  exact ⟨rfl, succeeds_update ht h⟩

lemma delivered_updateMany {guard : Payout → Bool} {update : Payout → Payout} {n : ℕ}
    (h : Model.payout.updateMany guard update w σ = .ok (n, σ'))
    (hupdate : ∀ p, guard p = true → MaySucceed R p (update p)) : Delivered R σ.1 σ'.1 := by
  obtain ⟨-, t, ht, rfl⟩ := Model.updateMany_ok h
  exact delivered_update ht rfl hupdate

lemma delivered_claimAndPost {guard : Payout → Bool} {update : Payout → Payout} {origin : Origin}
    {transactionId : Uuid} {entries : List LedgerEntrySpec} {b : Bool} {n : ℕ}
    (h : claimAndPost guard update origin transactionId entries w (s, 0) = .ok (b, s', n))
    (hupdate : ∀ p, guard p = true → MaySucceed R p (update p)) : Delivered R s s' := by
  rcases claimAndPost_ok h with ⟨rfl, -⟩ | ⟨row, -, -, payouts', accounts', es, hupd, -, hafter, -⟩
  · exact ⟨rfl, succeeds_same rfl⟩
  · have hpayouts : s'.payouts = payouts' := congrArg Db.payouts hafter
    exact ⟨by rw [hafter], succeeds_update (hpayouts ▸ hupd) hupdate⟩

abbrev Delivers (R : String → Prop) (prog : Prog App α) : Prop := prog.Each fun _ s s' => Delivered R s s'

lemma delivers_statement {m : Tx α} (h : ∀ w s a s', m.run w s = .ok (a, s') → Delivered R s s') :
    Delivers R (statement site m) :=
  Prog.each_command (fun _ => ⟨rfl, succeeds_same rfl⟩) h

lemma delivers_query {f : Db → α} : Delivers R (query site f) :=
  Prog.each_query fun _ => ⟨rfl, succeeds_same rfl⟩

lemma delivers_leaves {m : Tx α} (h : m.Leaves fun db => (db.payouts, db.webhookEvents)) :
    Delivers R (statement site m) := by
  refine delivers_statement fun _ _ _ _ hm => ?_
  obtain ⟨hpayouts, hevents⟩ := Prod.mk.inj (h.run hm)
  exact ⟨hevents, succeeds_same hpayouts⟩

end Statements

/-! ### What each program makes `SUCCESS` -/

section Programs

variable {R : String → Prop} {reference : String} {payoutId : Uuid} {payout : Payout} {reason : Option String}

lemma reload_delivers {id : Uuid} : Delivers R (some <$> reload id) :=
  Prog.each_bind (delivers_leaves fun _ _ _ _ h => by rw [(Model.findUniqueOrThrow_ok h).2]) fun _ => trivial

lemma transition_delivers {id : Uuid} {source : List PaymentStatus} {target : PaymentStatus} :
    Delivers R (transition id source target) :=
  delivers_leaves <| Tx.leaves_now fun _ =>
    Tx.leaves_bind (Model.updateMany_leaves fun _ _ => rfl) fun _ => Tx.leaves_pure

lemma enqueuePayouts_delivers {ids : List Uuid} : Delivers R (enqueuePayouts ids) := by
  induction ids with
  | nil => trivial
  | cons id ids ih => exact Prog.each_bind (Prog.each_attempt Prog.each_request) fun _ => ih

/-- The payouts of a settlement are yet to be made. -/
lemma settleVerified_delivers {payment : PaymentTransaction} : Delivers R (settleVerified reference payment) := by
  unfold settleVerified
  split
  · trivial
  refine Prog.each_bind (delivers_leaves fun _ _ _ _ h => by rw [(Model.findUniqueOrThrow_ok h).2]) fun rule =>
    Prog.each_bind Prog.each_ofExcept fun entries => ?_
  refine Prog.each_bind (delivers_statement fun w s o s' hm => ?_) fun o => ?_
  · rcases settleTransaction_ok hm with rfl | ⟨row, -, -, -, payments', accounts', payouts', payouts,
      entries', -, -, hrows, hafter, -, -, huntried⟩
    · exact ⟨rfl, succeeds_same rfl⟩
    · have hpayouts : s'.payouts.rows = s.payouts.rows ++ payouts :=
        (congrArg (fun d : Db => d.payouts.rows) hafter).trans hrows
      refine ⟨by rw [hafter], fun p' hp' hsuccess => ?_⟩
      rw [hpayouts, List.mem_append] at hp'
      rcases hp' with hp' | hp'
      · exact .inl ⟨p', hp', rfl, hsuccess, rfl⟩
      · rw [(huntried p' hp').status] at hsuccess
        cases hsuccess
  · rcases o with _ | ids
    · exact reload_delivers
    · exact Prog.each_bind enqueuePayouts_delivers fun _ => reload_delivers

lemma settle_delivers : Delivers R (settle reference) := by
  refine Prog.each_bind delivers_query fun found => ?_
  rcases found with _ | payment
  · trivial
  dsimp only
  split
  · trivial
  refine Prog.each_bind Prog.each_request fun verification => ?_
  split
  · exact Prog.each_bind transition_delivers fun _ => reload_delivers
  · exact Prog.each_bind transition_delivers fun _ => reload_delivers
  · exact Prog.each_bind transition_delivers fun _ => reload_delivers
  · split
    · trivial
    · exact settleVerified_delivers

/-- What is marked as succeeded has the reference it is marked for. -/
lemma markSucceeded_delivers (h : R reference) : Delivers R (markSucceeded payoutId reference) := by
  refine Prog.each_bind delivers_query fun found => ?_
  rcases found with _ | ⟨payout, account⟩
  · trivial
  refine Prog.each_bind Prog.each_ofExcept fun entries =>
    Prog.each_bind (delivers_statement fun w s b s' hm => ?_) fun _ => trivial
  obtain ⟨n, hm⟩ := Tx.run_ok.mp hm
  simp only [markSucceededTransaction, Tx.bind_ok, Tx.now_ok] at hm
  obtain ⟨_, _, ⟨rfl, rfl⟩, hm⟩ := hm
  refine delivered_claimAndPost hm fun p hp _ => .inr ⟨reference, ?_, h⟩
  simp only [Bool.and_eq_true, beq_iff_eq] at hp
  exact hp.1.2

lemma markForReview_delivers {reason : String} : Delivers R (markForReview payoutId reason) := by
  refine delivers_statement fun w s a s' hm => ?_
  obtain ⟨n, h⟩ := Tx.run_ok.mp hm
  simp only [Tx.bind_ok, Tx.now_ok, Tx.pure_ok] at h
  obtain ⟨_, _, ⟨rfl, rfl⟩, c, σ₁, hupd, -, rfl⟩ := h
  exact delivered_updateMany hupd fun p _ hsuccess => by cases hsuccess

lemma flagForOperator_delivers : Delivers R (flagForOperator payoutId) := by
  refine delivers_statement fun w s a s' hm => ?_
  obtain ⟨n, h⟩ := Tx.run_ok.mp hm
  simp only [Tx.bind_ok, Tx.now_ok] at h
  obtain ⟨_, _, ⟨rfl, rfl⟩, hupd⟩ := h
  obtain ⟨t, ht, hafter⟩ := Model.update_ok hupd
  exact delivered_update ht (congrArg Prod.fst hafter) fun p _ hsuccess => .inl ⟨rfl, hsuccess, rfl⟩

lemma retryOrReview_delivers {outcome : TransferOutcome} : Delivers R (retryOrReview payout outcome reason) := by
  unfold retryOrReview
  split
  · exact markForReview_delivers
  · exact Prog.each_request

lemma handleTransferEvent_delivers {outcome : TransferOutcome} (h : outcome = .success → R reference) :
    Delivers R (handleTransferEvent reference outcome reason) := by
  refine Prog.each_bind delivers_query fun found => ?_
  rcases found with _ | ⟨payout, account⟩
  · trivial
  dsimp only
  split
  · rename_i hsuccess
    exact markSucceeded_delivers (h hsuccess)
  split
  · refine Prog.each_bind Prog.each_ofExcept fun entries =>
      Prog.each_bind (delivers_statement fun w s b s' hm => ?_) fun b => ?_
    · obtain ⟨n, hm⟩ := Tx.run_ok.mp hm
      simp only [reversedTransaction, Tx.bind_ok, Tx.now_ok] at hm
      obtain ⟨_, _, ⟨rfl, rfl⟩, hm⟩ := hm
      exact delivered_claimAndPost hm fun p _ hsuccess => by cases hsuccess
    · split
      · exact retryOrReview_delivers
      · trivial
  split
  · refine Prog.each_bind (delivers_statement fun w s a s' hm => ?_) fun _ => retryOrReview_delivers
    obtain ⟨n, h⟩ := Tx.run_ok.mp hm
    simp only [Tx.bind_ok, Tx.now_ok, Tx.pure_ok] at h
    obtain ⟨_, _, ⟨rfl, rfl⟩, c, σ₁, hupd, -, rfl⟩ := h
    exact delivered_updateMany hupd fun p _ hsuccess => by cases hsuccess
  · trivial

lemma hold_delivers : Delivers R (hold payout) := by
  unfold hold
  split
  · refine delivers_statement fun w s a s' hm => ?_
    obtain ⟨n, h⟩ := Tx.run_ok.mp hm
    simp only [Tx.bind_ok, Tx.now_ok, Tx.pure_ok] at h
    obtain ⟨_, _, ⟨rfl, rfl⟩, c, σ₁, hupd, -, rfl⟩ := h
    exact delivered_updateMany hupd fun p _ hsuccess => by cases hsuccess
  · trivial

lemma claimAttempt_delivers : Delivers R (claimAttempt payout) := by
  refine delivers_statement fun w s n s' hm => ?_
  obtain ⟨m, h⟩ := Tx.run_ok.mp hm
  simp only [Tx.bind_ok, Tx.now_ok] at h
  obtain ⟨_, _, ⟨rfl, rfl⟩, h⟩ := h
  exact delivered_updateMany h fun p _ hsuccess => by cases hsuccess

lemma saveRecipient_delivers {code : String} : Delivers R (saveRecipient payoutId code) := by
  refine delivers_statement fun w s a s' hm => ?_
  obtain ⟨n, h⟩ := Tx.run_ok.mp hm
  simp only [Tx.bind_ok, Tx.now_ok] at h
  obtain ⟨_, _, ⟨rfl, rfl⟩, hupd⟩ := h
  obtain ⟨t, ht, hafter⟩ := Model.update_ok hupd
  exact delivered_update ht (congrArg Prod.fst hafter) fun p _ hsuccess => .inl ⟨rfl, hsuccess, rfl⟩

lemma resolveDestination_delivers {account : LedgerAccount} : Delivers R (resolveDestination account) := by
  unfold resolveDestination
  split
  · trivial
  · exact Prog.each_bind delivers_query fun _ => trivial
  · exact Prog.each_bind delivers_query fun _ => trivial
  · trivial

lemma transferAnswered_delivers {transfer : Transfer} (h : transfer.status = .success → R reference) :
    Delivers R (transferAnswered payout reference transfer) := by
  unfold transferAnswered
  split
  · rename_i hsuccess
    exact markSucceeded_delivers (h hsuccess)
  · exact handleTransferEvent_delivers nofun
  · exact handleTransferEvent_delivers nofun
  · exact flagForOperator_delivers
  · trivial

lemma retryPayout_delivers : Delivers R (retryPayout payoutId) := by
  refine Prog.each_bind (delivers_statement fun w s n s' hm => ?_) fun n => ?_
  · obtain ⟨m, h⟩ := Tx.run_ok.mp hm
    simp only [Tx.bind_ok, Tx.now_ok] at h
    obtain ⟨_, _, ⟨rfl, rfl⟩, h⟩ := h
    exact delivered_updateMany h fun p _ hsuccess => by cases hsuccess
  · split
    · refine Prog.each_bind delivers_query fun found => ?_
      split <;> trivial
    · exact Prog.each_bind Prog.each_request fun _ =>
        delivers_leaves fun _ _ _ _ h => by rw [(Model.findUniqueOrThrow_ok h).2]

lemma enqueueAll_delivers {ids : List Uuid} : Delivers R (enqueueAll ids) := by
  induction ids with
  | nil => trivial
  | cons id ids ih => exact Prog.each_bind Prog.each_request fun _ => ih

lemma enqueueDuePayouts_delivers : Delivers R enqueueDuePayouts := by
  refine Prog.each_bind (delivers_statement fun w s a s' hm => ?_) fun candidates =>
    Prog.each_bind delivers_query fun _ => Prog.each_bind delivers_query fun _ =>
      Prog.each_bind enqueueAll_delivers fun _ => trivial
  rw [(sweepCandidates_ok hm).1]
  exact ⟨rfl, succeeds_same rfl⟩

end Programs

/-! ### The server -/

/-- A call of the services, or a request to the endpoint, from which alone they learn of events. -/
inductive Work where
  | settle (reference : String)
  | processPayout (payoutId : Uuid)
  | retryPayout (payoutId : Uuid)
  | enqueueDuePayouts
  | request (request : Request)

def Work.program (p : PaystackProvider) (parse : Parser) : Work → Prog App Unit
  | .settle reference => do let _ ← Money.settle reference
  | .processPayout payoutId => Money.processPayout payoutId
  | .retryPayout payoutId => do let _ ← Money.retryPayout payoutId
  | .enqueueDuePayouts => do let _ ← Money.enqueueDuePayouts
  | .request r => r.program p parse

/-- The request that is sent to the endpoint. -/
def Work.delivers : Work → Option Request
  | .request r => some r
  | _ => none

/-- The rest of the system writes neither payouts nor events. -/
def server (p : PaystackProvider) (parse : Parser) : Outside App Work Unit Db where
  entry := Work.program p parse
  start _ _ _ := some ()
  move v db x := some ({ v with payouts := db.payouts, webhookEvents := db.webhookEvents }, x)

/-- Paystack told the run in a response that the transfer succeeded. -/
def Told (log : List (Did App)) (reference : String) : Prop := ∃ fetched, Reports fetched "success" ∧
  (.answered (.verifyTransfer reference) (verifyTransfer fetched) ∈ log ∨ ∃ params : TransferParams,
    params.reference = reference ∧ .answered (.initiateTransfer params) (initiateTransfer fetched) ∈ log)

/-- A stored event of a signed body says so, that was stored at the start or delivered to one of the runs. -/
def Announced (p : PaystackProvider) (parse : Parser) (q₀ q : Pool App Work Unit) (reference : String) : Prop :=
  ∃ e ∈ q.store.webhookEvents.rows, Genuine p parse e ∧ Came p parse Work.delivers q₀ q e ∧
    e.eventType = "transfer.success" ∧ payloadReference e.payload = some reference

/-- Paystack said so to one of the runs, or in a signed event. -/
def OnItsWord (p : PaystackProvider) (parse : Parser) (q₀ q : Pool App Work Unit) (reference : String) : Prop :=
  (∃ r ∈ q.runs, Told r.log reference) ∨ Announced p parse q₀ q reference

/-- A payout that is `SUCCESS` was so at the start, or is so on Paystack's word. -/
def PaidOnItsWord (p : PaystackProvider) (parse : Parser) (q₀ q : Pool App Work Unit) : Prop :=
  ∀ payout ∈ q.store.payouts.rows, payout.status = .SUCCESS → Was q₀.store payout ∨
    ∃ reference, payout.transferReference = some reference ∧ OnItsWord p parse q₀ q reference

/-! ### What justifies `SUCCESS` -/

variable {p : PaystackProvider} {parse : Parser}

/-- The run was told that the transfer succeeded. -/
def Noted (log : List (Did App)) (reference : String) : Prop :=
  .answered (.verifyTransfer reference) (.ok .success) ∈ log ∨ ∃ (params : TransferParams) (transfer : Transfer),
    params.reference = reference ∧ transfer.status = .success ∧
    .answered (.initiateTransfer params) (.ok transfer) ∈ log

/-- The run saw an event that says so. -/
def Heard (log : List (Did App)) (reference : String) : Prop :=
  ∃ e, Saw log e ∧ e.eventType = "transfer.success" ∧ payloadReference e.payload = some reference

def Warranted (log : List (Did App)) (reference : String) : Prop := Noted log reference ∨ Heard log reference

lemma Warranted.mono {log log' : List (Did App)} {reference : String} (h : Warranted log reference)
    (hpre : log <+: log') : Warranted log' reference := by
  rcases h with (hverified | ⟨params, transfer, href, hsuccess, hinitiated⟩) | ⟨e, hsaw, he⟩
  · exact .inl (.inl (hpre.subset hverified))
  · exact .inl (.inr ⟨params, transfer, href, hsuccess, hpre.subset hinitiated⟩)
  · exact .inr ⟨e, hsaw.mono hpre, he⟩

/-- Events are taken in, and payouts are made `SUCCESS` on a warrant. -/
def Warrants (p : PaystackProvider) (parse : Parser) (work : Work) (log : List (Did App)) (_ : Site) (s s' : Db) :
    Prop :=
  TakesIn p parse work.delivers s s' ∧ Succeeds (Warranted log) s s'

section Warrants

variable {α : Type} {work : Work} {log : List (Did App)} {event : WebhookEvent} {payout : Payout}
  {account : LedgerAccount}

lemma warrants_mono (log' : List (Did App)) (site : Site) (s s' : Db) (hpre : log <+: log')
    (h : Warrants p parse work log site s s') : Warrants p parse work log' site s s' :=
  ⟨h.1, h.2.mono fun _ hwarrant => hwarrant.mono hpre⟩

lemma each_warrants {prog : Prog App α} (h : Delivers (Warranted log) prog) :
    prog.Each (Warrants p parse work log) :=
  h.mono fun _ _ _ hstmt => ⟨takesIn_same hstmt.events, hstmt.payouts⟩

/-- A program that has its warrant from the start. -/
lemma warrants_of_delivers {prog : Prog App α} (h : Delivers (Warranted log) prog) :
    Justifies (Warrants p parse) prog work log :=
  justifies_of_each warrants_mono (each_warrants h)

/-! What follows an answer has it for a warrant. -/

lemma sendTransfer_warrants {recipientName bankCode accountNumber transferReason : String} :
    Justifies (Warrants p parse) (sendTransfer payout account recipientName bankCode accountNumber transferReason)
      work log := by
  refine justifies_request fun code => justifies_then (warrants_of_delivers saveRecipient_delivers) fun _ log _ => ?_
  refine justifies_request fun transfer => warrants_of_delivers (transferAnswered_delivers fun hsuccess => ?_)
  refine .inl (.inr ⟨_, transfer, ?_, hsuccess, List.mem_append_right _ List.mem_cons_self⟩)
  rfl

lemma newAttempt_warrants : Justifies (Warrants p parse) (newAttempt payout account) work log := by
  refine justifies_then (warrants_of_delivers resolveDestination_delivers) fun destination log _ => ?_
  rcases destination with _ | _ | _
  · refine justifies_then (warrants_of_delivers claimAttempt_delivers) fun n log _ => ?_
    split
    · trivial
    · exact sendTransfer_warrants
  · exact warrants_of_delivers hold_delivers
  · exact warrants_of_delivers markForReview_delivers

lemma processPayout_warrants {payoutId : Uuid} : Justifies (Warrants p parse) (processPayout payoutId) work log := by
  refine justifies_then (warrants_of_delivers delivers_query) fun found log _ => ?_
  rcases found with _ | ⟨payout, account⟩
  · trivial
  dsimp only
  split
  · trivial
  split
  · exact newAttempt_warrants
  rename_i reference hreference
  refine justifies_request fun status => ?_
  rcases status with _ | _ | _ | _ | _ | _
  · trivial
  · exact warrants_of_delivers (markSucceeded_delivers (.inl (.inl (by simp))))
  · exact newAttempt_warrants
  · exact newAttempt_warrants
  · exact warrants_of_delivers flagForOperator_delivers
  · exact newAttempt_warrants

/-- An event of success that the run saw is a warrant. -/
lemma process_delivers (hsaw : Saw log event) : Delivers (Warranted log) (process event) := by
  unfold process
  rcases hreference : payloadReference event.payload with _ | reference
  · trivial
  dsimp only
  split
  · exact Prog.each_bind settle_delivers fun _ => trivial
  split
  · rename_i htype
    exact handleTransferEvent_delivers fun _ => .inr ⟨event, hsaw, htype, hreference⟩
  split
  · exact handleTransferEvent_delivers nofun
  split
  · exact handleTransferEvent_delivers nofun
  · trivial

lemma warrants_vouches (request : Request) :
    Vouches (Warrants p parse) (.request request) p parse (some request) where
  mono _ := warrants_mono
  beside _ _ _ _ htakes hpayouts _ := ⟨htakes, succeeds_same hpayouts⟩
  processed _ _ hsaw := each_warrants (process_delivers hsaw)

lemma program_warrants (work : Work) : Justifies (Warrants p parse) (work.program p parse) work log := by
  cases work with
  | settle reference => exact justifies_then (warrants_of_delivers settle_delivers) fun _ _ _ => trivial
  | processPayout payoutId => exact processPayout_warrants
  | retryPayout payoutId => exact justifies_then (warrants_of_delivers retryPayout_delivers) fun _ _ _ => trivial
  | enqueueDuePayouts => exact justifies_then (warrants_of_delivers enqueueDuePayouts_delivers) fun _ _ _ => trivial
  | request r => exact program_vouched (warrants_vouches r)

end Warrants

/-! ### Whole runs -/

section Runs

variable {q₀ q q' : Pool App Work Unit} {r : Run App Work} {ev : Event App Work Db}
  {reference : String} {log : List (Did App)}

lemma Told.mono {log' : List (Did App)} (h : Told log reference) (hlog : log ⊆ log') : Told log' reference := by
  obtain ⟨fetched, hreports, hverified | ⟨params, hparams, hinitiated⟩⟩ := h
  · exact ⟨fetched, hreports, .inl (hlog hverified)⟩
  · exact ⟨fetched, hreports, .inr ⟨params, hparams, hlog hinitiated⟩⟩

/-- What a run was told, it was told by a response. -/
lemma told_of_noted (hof : ∀ d ∈ log, OfResponse d) (h : Noted log reference) : Told log reference := by
  rcases h with hverified | ⟨params, transfer, rfl, hsuccess, hinitiated⟩
  · obtain ⟨fetched, hfetched⟩ := hof _ hverified
    rw [hfetched] at hverified
    exact ⟨fetched, verified_success.mp hfetched.symm, .inl hverified⟩
  · obtain ⟨fetched, hfetched⟩ := hof _ hinitiated
    rw [hfetched] at hinitiated
    exact ⟨fetched, initiated_success.mp ⟨transfer, hfetched.symm, hsuccess⟩, .inr ⟨params, rfl, hinitiated⟩⟩

/-- An event that a run saw is stored still. -/
lemma announced_of_heard (htaken : TakenIn p parse Work.delivers q₀ q) (hgenuine : AllGenuine p parse q₀.store)
    (hr : r ∈ q.runs) (h : Heard r.log reference) : Announced p parse q₀ q reference := by
  obtain ⟨e, hsaw, htype, hreference⟩ := h
  obtain ⟨e', he', hsame⟩ := htaken.stored hr hsaw
  have hcame : Came p parse Work.delivers q₀ q e' := htaken.came e' he'
  exact ⟨e', he', hcame.genuine hgenuine, hcame, hsame.eventType.trans htype, hsame.payload ▸ hreference⟩

/-- The invariant: every run has its warrants, no event comes from elsewhere, all answers are made of responses. -/
structure Honest (p : PaystackProvider) (parse : Parser) (q₀ q : Pool App Work Unit) : Prop where
  watched : (justifying (Warrants p parse)).WatchesAll q
  taken : TakenIn p parse Work.delivers q₀ q
  responses : ∀ r ∈ q.runs, ∀ d ∈ r.log, OfResponse d
  paid : PaidOnItsWord p parse q₀ q

lemma Honest.onItsWord (h : Honest p parse q₀ q) (hgenuine : AllGenuine p parse q₀.store) (hr : r ∈ q.runs)
    (hwarrant : Warranted r.log reference) : OnItsWord p parse q₀ q reference :=
  hwarrant.imp (fun hnoted => ⟨r, hr, told_of_noted (h.responses r hr) hnoted⟩)
    (announced_of_heard h.taken hgenuine hr)

/-- Where a run goes on and no event is lost, what Paystack said is said. -/
lemma OnItsWord.extends (h : OnItsWord p parse q₀ q reference) (hext : Extends q q')
    (hlasts : Lasts q.store q'.store) : OnItsWord p parse q₀ q' reference := by
  rcases h with ⟨r, hr, htold⟩ | ⟨e, he, hgenuine, hcame, htype, hreference⟩
  · obtain ⟨r', hr', -, hpre⟩ := hext r hr
    exact .inl ⟨r', hr', htold.mono hpre.subset⟩
  · obtain ⟨e', he', hsame⟩ := hlasts e he
    exact .inr ⟨e', he', hgenuine.same hsame, (hcame.same hsame).extends hext, hsame.eventType.trans htype,
      hsame.payload ▸ hreference⟩

/-- What an event of the pool does: a run's statement that has its warrants, or nothing to events and payouts. -/
lemma Honest.step_store (h : Honest p parse q₀ q) (hs : step (server p parse) q ev = some q') :
    (∃ r ∈ q.runs, TakesIn p parse r.label.delivers q.store q'.store ∧ Succeeds (Warranted r.log) q.store q'.store) ∨
      q'.store.webhookEvents = q.store.webhookEvents ∧ q'.store.payouts = q.store.payouts := by
  rcases justified_step h.watched hs with ⟨r, hr, site, hstmt⟩ | hstore | ⟨v, -, hmove⟩
  · exact .inl ⟨r, hr, hstmt⟩
  · exact .inr (by simp [hstore])
  · simp only [server, Option.some.injEq, Prod.mk.injEq] at hmove
    exact .inr (by simp [← hmove.1])

theorem honest_step (hgenuine : AllGenuine p parse q₀.store) (h : Honest p parse q₀ q) (hwired : Wired q ev)
    (hs : step (server p parse) q ev = some q') : Honest p parse q₀ q' := by
  have hext : Extends q q' := step_extends hs
  have hwatched : (justifying (Warrants p parse)).WatchesAll q' :=
    Monitor.watchesAll_step h.watched (fun work _ _ => program_warrants work) justifying_relies hs
  have hresponses := logged_step h.responses (fun _ _ htells => ofResponse_tells hwired htells) hs
  rcases h.step_store hs with ⟨r, hr, htakes, hsucceeds⟩ | ⟨hevents, hpayouts⟩
  · refine ⟨hwatched, takenIn_step h.taken (.inl ⟨r, hr, htakes⟩) hs, hresponses, fun payout hpayout hsuccess => ?_⟩
    rcases hsucceeds payout hpayout hsuccess with ⟨old, hold, hid, hstatus, href⟩ | ⟨reference, href, hwarrant⟩
    · rcases h.paid old hold hstatus with ⟨first, hfirst, hid', hstatus', href'⟩ | ⟨reference, href', hword⟩
      · exact .inl ⟨first, hfirst, hid'.trans hid, hstatus', href'.trans href⟩
      · exact .inr ⟨reference, href.symm.trans href', hword.extends hext htakes.lasts⟩
    · exact .inr ⟨reference, href, (h.onItsWord hgenuine hr hwarrant).extends hext htakes.lasts⟩
  · have hlasts : Lasts q.store q'.store := lasts_of_eq hevents
    refine ⟨hwatched, takenIn_step h.taken (.inr hevents) hs, hresponses, fun payout hpayout hsuccess => ?_⟩
    rw [hpayouts] at hpayout
    exact (h.paid payout hpayout hsuccess).imp_right fun ⟨reference, href, hword⟩ =>
      ⟨reference, href, hword.extends hext hlasts⟩

/-- **A payout is `SUCCESS` on Paystack's word only**, however its runs interleave and crash, whatever is sent to
the endpoint and whatever is fetched: for its reference a run was told so, or a stored event says so that a run was
sent with its signature. -/
theorem paid_on_its_word (p : PaystackProvider) (parse : Parser) (hruns : q₀.runs = [])
    (hgenuine : AllGenuine p parse q₀.store) (hreach : Reach (server p parse) Wired q₀ q) :
    PaidOnItsWord p parse q₀ q := by
  have hnone : ∀ r, r ∉ q₀.runs := by simp [hruns]
  have hstart : Honest p parse q₀ q₀ :=
    ⟨fun r hr => absurd hr (hnone r),
      ⟨fun e he => .inl ⟨e, he, .refl e⟩, lasts_refl _, fun r hr => absurd hr (hnone r)⟩,
      fun r hr => absurd hr (hnone r), fun payout hpayout hsuccess => .inl ⟨payout, hpayout, rfl, hsuccess, rfl⟩⟩
  exact (hreach.keeps (P := Honest p parse q₀) (fun _ _ _ h hok hs => honest_step hgenuine h hok hs) hstart).paid

end Runs

/-! ### A transfer that succeeds at once -/

def paidAtOnce : List (Event App Work Db) :=
  .start (.processPayout (uid 11)) :: execs 0 [1, 2, 3] ++ asks 0 (overHttp (reporting "success")) ++ execs 0 [4] ++
    asks 0 (overHttp (reporting "success")) ++ execs 0 [5, 6]

theorem paid_on_its_word_sample : ∃ q, run (server signing parseCharge) ⟨payoutDb, (), []⟩ paidAtOnce = some q ∧
    (∃ payout ∈ q.store.payouts.rows, payout.id = uid 11 ∧ payout.status = .SUCCESS) ∧
    PaidOnItsWord signing parseCharge ⟨payoutDb, (), []⟩ q := by
  have hrun : ((run (server signing parseCharge) ⟨payoutDb, (), []⟩ paidAtOnce).any fun q =>
      q.store.payouts.rows.any fun payout => payout.id == uid 11 && payout.status == .SUCCESS) = true := by
    decide +kernel
  obtain ⟨q, hq, hpaid⟩ := (Option.any_eq_true _ _).mp hrun
  obtain ⟨payout, hpayout, hboth⟩ := List.any_eq_true.mp hpaid
  obtain ⟨hid, hstatus⟩ := (Bool.and_eq_true _ _).mp hboth
  refine ⟨q, hq, ⟨payout, hpayout, beq_iff_eq.mp hid, beq_iff_eq.mp hstatus⟩,
    paid_on_its_word signing parseCharge rfl (fun e he => by cases he) (reach_of_run (along_wired ?_) hq)⟩
  intro i o hmem
  simp only [paidAtOnce, execs, asks, List.map_cons, List.map_nil, List.cons_append, List.nil_append,
    List.mem_cons, List.not_mem_nil, or_false, reduceCtorEq, false_or, Event.answer.injEq] at hmem
  rcases hmem with ⟨-, rfl⟩ | ⟨-, rfl⟩
  · exact ⟨_, rfl⟩
  · exact ⟨_, rfl⟩

end Splitcore.Webhooks
