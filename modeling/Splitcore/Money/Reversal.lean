import Splitcore.Money.Attempted

/-!
A success and a reversal of one transfer, handled side by side.

The success is handled once, and nothing else makes the payout `SUCCESS`. The reversal takes it
back only if it found the payout `SUCCESS` when it looked it up; otherwise what it writes is
undone by the success that is still to come.
-/

namespace Splitcore.Money

open Relational Interleaving Ledger

/-! ### Two calls -/

/-- The calls are under way from the start; nobody starts another. -/
def transferEvents (reference : String) (reason : TransferOutcome → Option String) :
    Outside App TransferOutcome Unit Db where
  entry outcome := handleTransferEvent reference outcome (reason outcome)
  start _ _ _ := none
  move v db x := (elsewhere v db).map (·, x)

def told (reference : String) (reason : TransferOutcome → Option String) (db : Db) :
    Pool App TransferOutcome Unit :=
  ⟨db, (), [.new .success db (handleTransferEvent reference .success (reason .success)),
    .new .reversed db (handleTransferEvent reference .reversed (reason .reversed))]⟩

/-- The call ended without throwing. -/
def Processed (p : Pool App TransferOutcome Unit) (i : ℕ) : Prop :=
  ∃ r, p.runs[i]? = some r ∧ r.prog = .ret ()

/-! ### What the calls do to the payout's status -/

variable {payoutId : Uuid} {reference : String} {s s' : Db} {w : Input}

def isSuccess (payoutId : Uuid) (db : Db) : Bool :=
  db.payouts.rows.any fun p => p.id == payoutId && p.status == .SUCCESS

/-- The payout has the reference, and its account exists. -/
def Bears (payoutId : Uuid) (reference : String) (db : Db) : Prop :=
  ∃ p ∈ db.payouts.rows, p.id = payoutId ∧ p.transferReference = some reference ∧
    ∃ a ∈ db.ledgerAccounts.rows, a.id = p.ledgerAccountId

/-- What a call knows: whether the payout was `SUCCESS` when it looked it up, and whether its
deciding transaction took place, after which the payout is (for a success) or is not (for a
reversal) `SUCCESS`. -/
structure Handling where
  outcome : TransferOutcome
  found : Bool
  decided : Bool

def Handling.next (payoutId : Uuid) (g : Handling) : Did App → Handling
  | .stmt (.handleTransferEventFind _) _ s _ => { g with found := g.found || isSuccess payoutId s }
  | .stmt (.markSucceededTransaction _) _ _ s' => { g with decided := isSuccess payoutId s' }
  | .stmt (.handleTransferEventReversed _) _ _ s' => { g with decided := !isSuccess payoutId s' }
  | _ => g

/-- A statement other than the deciding one leaves `SUCCESS` as it is. -/
def Handles (payoutId : Uuid) (g : Handling) (site : Site) (s s' : Db) : Prop :=
  match site with
  | .handleTransferEventFind _ => g.decided = false ∧ s' = s
  | .markSucceededTransaction _ => g.outcome = .success ∧ g.decided = false
  | .handleTransferEventReversed _ => g.outcome = .reversed ∧ g.found = true
  | _ => isSuccess payoutId s' = isSuccess payoutId s

/-- A call handles its outcome; at its end a success was recorded, and a reversal that found a
`SUCCESS` took it back. -/
def handling (payoutId : Uuid) (reference : String) : Monitor App TransferOutcome where
  State := Handling
  init outcome _ := ⟨outcome, false, false⟩
  next := Handling.next payoutId
  rely _ _ s := Bears payoutId reference s
  guar g site _ s s' := Handles payoutId g site s s' ∧ Bears payoutId reference s'
  post g r := r = .ok () → (g.outcome = .success ∨ g.found = true) → g.decided = true

section Programs

variable {g : Handling}

/-- The call keeps to the monitor. -/
abbrev HandlesAll (payoutId : Uuid) (reference : String) (p : Prog App Unit) (g : Handling) : Prop :=
  Obeys (handling payoutId reference) (handling payoutId reference).post p g

lemma isSuccess_eq {p : Payout} (hp : p ∈ s.payouts.rows) :
    isSuccess p.id s = (p.status == .SUCCESS) := by
  rw [Bool.eq_iff_iff, isSuccess, List.any_eq_true]
  constructor
  · rintro ⟨q, hq, h⟩
    simp only [Bool.and_eq_true, beq_iff_eq] at h
    obtain rfl := payout_eq hq hp h.1
    simpa using h.2
  · exact fun h => ⟨p, hp, by simpa using h⟩

/-- An update of payouts keeps the reference and the account. -/
lemma bears_update {guard : Payout → Bool} {update : Payout → Payout}
    (ht : s.payouts.update guard update = some s'.payouts)
    (hkeeps : ∀ p, (update p).id = p.id ∧ (update p).transferReference = p.transferReference ∧
      (update p).ledgerAccountId = p.ledgerAccountId)
    (hacc : s.ledgerAccounts.rows <+: s'.ledgerAccounts.rows) (h : Bears payoutId reference s) :
    Bears payoutId reference s' := by
  obtain ⟨p, hp, hid, href, a, ha, haid⟩ := h
  refine ⟨_, (mem_update ht).mpr ⟨p, hp, rfl⟩, ?_⟩
  split
  · exact ⟨(hkeeps p).1.trans hid, (hkeeps p).2.1.trans href, a, hacc.subset ha,
      haid.trans (hkeeps p).2.2.symm⟩
  · exact ⟨hid, href, a, hacc.subset ha, haid⟩

/-- An update that does not cross `SUCCESS`. -/
lemma isSuccess_update {guard : Payout → Bool} {update : Payout → Payout}
    (ht : s.payouts.update guard update = some s'.payouts) (hid : ∀ p, (update p).id = p.id)
    (hstatus : ∀ p, guard p = true → ((update p).status = .SUCCESS ↔ p.status = .SUCCESS)) :
    isSuccess payoutId s' = isSuccess payoutId s := by
  have hrow : ∀ p, ((if guard p then update p else p).id == payoutId &&
      (if guard p then update p else p).status == .SUCCESS) =
      (p.id == payoutId && p.status == .SUCCESS) := fun p => by
    split
    · rename_i hp
      rw [hid p, Bool.eq_iff_iff]
      simp [hstatus p hp]
    · rfl
  rw [isSuccess, Table.rows_update ht, List.any_map, isSuccess]
  exact congrArg (List.any _) (funext hrow)

/-- What the payout's reference finds. -/
lemma Bears.find_reference (h : Bears payoutId reference s) : ∃ p ∈ s.payouts.rows, ∃ a,
    p.id = payoutId ∧
      payoutWithAccount (·.transferReference == some reference) s = some (p, a) := by
  obtain ⟨p, hp, hid, href, a, ha, haid⟩ := h
  have hnames : Table.Names (fun q : Payout => q.transferReference == some reference)
      (.text reference) := fun q hq => by simp [Indexed.keys, beq_iff_eq.mp hq]
  have hfind := (Table.find_eq_some hnames).mpr ⟨hp, by simp [href]⟩
  have hacc : Table.Names (fun b : LedgerAccount => b.id == p.ledgerAccountId)
      (.id p.ledgerAccountId) := fun b hb => by simp [Indexed.keys, beq_iff_eq.mp hb]
  have hfinda := (Table.find_eq_some hacc).mpr ⟨ha, by simp [haid]⟩
  exact ⟨p, hp, a, hid, by simp [payoutWithAccount, hfind, hfinda]⟩

lemma handles_query {α : Type} {site : Site} {f : Db → α} {k : α → Prog App Unit}
    (h : ∀ w s, Bears payoutId reference s → Handles payoutId g site s s ∧
      HandlesAll payoutId reference (k (f s)) (g.next payoutId (.stmt site w s s))) :
    HandlesAll payoutId reference (query site f >>= k) g :=
  obeys_bind.mpr <| obeys_query (fun w s hr => ⟨⟨(h w s hr).1, hr⟩, (h w s hr).2⟩)
    fun _ _ => by simp [handling]

lemma handles_statement {α : Type} {site : Site} {m : Tx α} {k : α → Prog App Unit}
    (hskip : ∀ s, Handles payoutId g site s s)
    (h : ∀ w s a s', Bears payoutId reference s → m.run w s = .ok (a, s') →
      (Handles payoutId g site s s' ∧ Bears payoutId reference s') ∧
      HandlesAll payoutId reference (k a) (g.next payoutId (.stmt site w s s'))) :
    HandlesAll payoutId reference (statement site m >>= k) g :=
  obeys_bind.mpr <| obeys_command (fun w s a s' hr hm => h w s a s' hr hm)
    (fun w s e hr _ => ⟨hskip s, hr⟩) fun _ _ => by simp [handling]

lemma handles_ret (h : g.outcome = .success ∨ g.found = true → g.decided = true) :
    HandlesAll payoutId reference (.ret ()) g := fun _ => h

lemma handles_raise {e : Err} : HandlesAll payoutId reference (.raise e) g := fun h => by cases h

lemma handles_ofExcept {α : Type} {r : Except Err α} {k : α → Prog App Unit}
    (h : ∀ a, r = .ok a → HandlesAll payoutId reference (k a) g) :
    HandlesAll payoutId reference (.ofExcept r >>= k) g := by
  rcases r with e | a
  · exact handles_raise
  · exact h a rfl

/-- An update by id of payouts that are not `SUCCESS` and do not become it. -/
lemma updateMany_handles {guard : Payout → Bool} {update : Payout → Payout} {n m : ℕ}
    (h : Model.payout.updateMany guard update w (s, 0) = .ok (n, s', m))
    (hkeeps : ∀ p, (update p).id = p.id ∧ (update p).transferReference = p.transferReference ∧
      (update p).ledgerAccountId = p.ledgerAccountId)
    (hstatus : ∀ p, guard p = true → ((update p).status = .SUCCESS ↔ p.status = .SUCCESS))
    (hb : Bears payoutId reference s) :
    isSuccess payoutId s' = isSuccess payoutId s ∧ Bears payoutId reference s' := by
  obtain ⟨-, t, ht, hσ⟩ := Model.updateMany_ok h
  obtain rfl : s' = { s with payouts := t } := congrArg Prod.fst hσ
  exact ⟨isSuccess_update ht (fun p => (hkeeps p).1) hstatus,
    bears_update ht hkeeps List.prefix_rfl hb⟩

lemma retryOrReview_handles {payout : Payout} {outcome : TransferOutcome} {reason : Option String}
    (h : g.outcome = .success ∨ g.found = true → g.decided = true) :
    HandlesAll payoutId reference (retryOrReview payout outcome reason) g := by
  unfold retryOrReview
  split
  · refine obeys_command (fun w s a s' hb hm => ?_) (fun w s e hb _ => ⟨rfl, hb⟩)
      fun _ _ => by simp [handling]
    refine ⟨?_, fun _ => h⟩
    obtain ⟨n, hm⟩ := Tx.run_ok.mp hm
    simp only [Tx.bind_ok, Tx.now_ok, Tx.pure_ok] at hm
    obtain ⟨_, _, ⟨rfl, rfl⟩, c, σ₁, hupd, -, rfl⟩ := hm
    refine updateMany_handles hupd (fun _ => ⟨rfl, rfl, rfl⟩) (fun p hp => ?_) hb
    simp only [Bool.and_eq_true, bne_iff_ne] at hp
    simp [hp.2]
  · exact obeys_request trivial fun a => by
      rcases a with e | ⟨⟩
      · simp [handling]
      · exact fun _ => h

/-- The deciding transaction of a success: the payout is `SUCCESS` after it. -/
lemma markSucceededTransaction_handles {entries : List LedgerEntrySpec} {transactionId : Uuid}
    {b : Bool} (hm : (markSucceededTransaction payoutId reference transactionId entries).run w s
      = .ok (b, s')) (hb : Bears payoutId reference s) :
    isSuccess payoutId s' = true ∧ Bears payoutId reference s' := by
  obtain ⟨m, hm⟩ := Tx.run_ok.mp hm
  simp only [markSucceededTransaction, Tx.bind_ok, Tx.now_ok] at hm
  obtain ⟨_, _, ⟨rfl, rfl⟩, hm⟩ := hm
  rcases claimAndPost_ok hm with ⟨rfl, hnone⟩ |
    ⟨row, hrow, hguard, payouts', accounts', es, hupd, hpre, hafter, -⟩
  · refine ⟨?_, hb⟩
    obtain ⟨p, hp, rfl, href, -⟩ := hb
    have := hnone p hp
    rw [isSuccess_eq hp]
    simpa [href] using this
  · have hpayouts : s'.payouts = payouts' := congrArg Db.payouts hafter
    have haccounts : s'.ledgerAccounts = accounts' := congrArg Db.ledgerAccounts hafter
    rw [← hpayouts] at hupd
    refine ⟨?_, bears_update hupd (fun _ => ⟨rfl, rfl, rfl⟩)
      (by rw [haccounts]; exact hpre) hb⟩
    simp only [isSuccess, List.any_eq_true]
    refine ⟨_, (mem_update hupd).mpr ⟨row, hrow, if_pos hguard⟩, ?_⟩
    simp only [Bool.and_eq_true, beq_iff_eq] at hguard
    simp [hguard.1.1]

/-- The deciding transaction of a reversal: the payout is not `SUCCESS` after it. -/
lemma reversedTransaction_handles {entries : List LedgerEntrySpec} {transactionId : Uuid}
    {reason : Option String} {b : Bool}
    (hm : (reversedTransaction payoutId reference reason transactionId entries).run w s
      = .ok (b, s')) (hb : Bears payoutId reference s) :
    isSuccess payoutId s' = false ∧ Bears payoutId reference s' := by
  obtain ⟨m, hm⟩ := Tx.run_ok.mp hm
  simp only [reversedTransaction, Tx.bind_ok, Tx.now_ok] at hm
  obtain ⟨_, _, ⟨rfl, rfl⟩, hm⟩ := hm
  rcases claimAndPost_ok hm with ⟨rfl, hnone⟩ |
    ⟨row, hrow, hguard, payouts', accounts', es, hupd, hpre, hafter, -⟩
  · refine ⟨?_, hb⟩
    obtain ⟨p, hp, rfl, href, -⟩ := hb
    have := hnone p hp
    rw [isSuccess_eq hp]
    simpa [href] using this
  · have hpayouts : s'.payouts = payouts' := congrArg Db.payouts hafter
    have haccounts : s'.ledgerAccounts = accounts' := congrArg Db.ledgerAccounts hafter
    rw [← hpayouts] at hupd
    refine ⟨?_, bears_update hupd (fun _ => ⟨rfl, rfl, rfl⟩)
      (by rw [haccounts]; exact hpre) hb⟩
    have hnew := (mem_update hupd).mpr ⟨row, hrow, if_pos hguard⟩
    simp only [Bool.and_eq_true, beq_iff_eq] at hguard
    rw [← hguard.1.1]
    exact isSuccess_eq hnew

theorem handleTransferEvent_handles {outcome : TransferOutcome} {reason : Option String}
    (houtcome : outcome ≠ .failed) : HandlesAll payoutId reference
      (handleTransferEvent reference outcome reason) ⟨outcome, false, false⟩ := by
  refine handles_query fun w s hb => ⟨⟨rfl, rfl⟩, ?_⟩
  obtain ⟨payout, hmem, account, rfl, hfind⟩ := hb.find_reference
  rw [hfind]
  have hfound := isSuccess_eq hmem
  simp only [Handling.next, Bool.false_or]
  cases outcome with
  | failed => exact absurd rfl houtcome
  | success =>
    simp only [if_true]
    refine handles_query fun w s₂ hb₂ => ⟨rfl, ?_⟩
    rcases payoutWithAccount (·.id == payout.id) s₂ with _ | ⟨payout₂, account₂⟩
    · exact handles_raise
    refine handles_ofExcept fun entries _ => ?_
    refine handles_statement (fun _ => ⟨rfl, rfl⟩) fun w s₃ b s₄ hb₃ hm => ?_
    obtain ⟨hpaid, hb₄⟩ := markSucceededTransaction_handles hm hb₃
    exact ⟨⟨⟨rfl, rfl⟩, hb₄⟩, handles_ret fun _ => hpaid⟩
  | reversed =>
    simp only [reduceCtorEq, if_false, true_and]
    split
    · rename_i hsuccess
      have hfound' : isSuccess payout.id s = true := by rw [hfound, hsuccess]; rfl
      refine handles_ofExcept fun entries _ => ?_
      refine handles_statement (fun _ => ⟨rfl, hfound'⟩) fun w s₂ b s₃ hb₂ hm => ?_
      obtain ⟨hback, hb₃⟩ := reversedTransaction_handles hm hb₂
      refine ⟨⟨⟨rfl, hfound'⟩, hb₃⟩, ?_⟩
      have hdecided : (!isSuccess payout.id s₃) = true := by rw [hback]; rfl
      split
      · exact retryOrReview_handles fun _ => hdecided
      · exact handles_ret fun _ => hdecided
    · rename_i hnot
      have hfound' : isSuccess payout.id s = false := by rw [hfound]; simpa using hnot
      rw [hfound']
      refine handles_statement (fun _ => rfl) fun w s₂ a s₃ hb₂ hm => ⟨?_, ?_⟩
      · obtain ⟨n, hm⟩ := Tx.run_ok.mp hm
        simp only [Tx.bind_ok, Tx.now_ok, Tx.pure_ok] at hm
        obtain ⟨_, _, ⟨rfl, rfl⟩, c, σ₁, hupd, -, rfl⟩ := hm
        refine updateMany_handles hupd (fun _ => ⟨rfl, rfl, rfl⟩) (fun p hp => ?_) hb₂
        simp only [Bool.and_eq_true, bne_iff_ne] at hp
        simp [hp.2]
      · exact retryOrReview_handles (by simp [Handling.next])

end Programs

/-! ### Side by side -/

/-- What the two calls know, together with whether the payout is `SUCCESS` now. -/
structure Agree (gs gr : Handling) (paid : Bool) : Prop where
  success : gs.outcome = .success
  reversed : gr.outcome = .reversed
  unpaid : gs.decided = false → paid = false
  found : gr.found = true → gs.decided = true
  kept : gs.decided = true → gr.decided = false → paid = true
  back : gr.decided = true → paid = false ∧ gr.found = true

variable {gs gr g : Handling} {site : Site}

lemma Agree.success_step (h : Agree gs gr (isSuccess payoutId s)) (hg : Handles payoutId gs site s s') :
    Agree (gs.next payoutId (.stmt site w s s')) gr (isSuccess payoutId s') := by
  have hother : gs.next payoutId (.stmt site w s s') = gs →
      isSuccess payoutId s' = isSuccess payoutId s →
      Agree (gs.next payoutId (.stmt site w s s')) gr (isSuccess payoutId s') := fun hnext hsame => by
    rw [hnext, hsame]; exact h
  cases site with
  | handleTransferEventFind r =>
    obtain ⟨-, rfl⟩ := hg
    exact ⟨h.success, h.reversed, h.unpaid, h.found, h.kept, h.back⟩
  | markSucceededTransaction id =>
    obtain ⟨-, hundecided⟩ := hg
    have hnot : gr.found = false := by
      by_contra hf
      simpa [hundecided] using h.found (by simpa using hf)
    refine ⟨h.success, h.reversed, fun hd => hd, fun hf => ?_, fun hd _ => hd, fun hd => ?_⟩
    · rw [hnot] at hf; cases hf
    · have := (h.back hd).2
      rw [hnot] at this; cases this
  | handleTransferEventReversed id =>
    have := hg.1.symm.trans h.success
    cases this
  | _ => exact hother rfl hg

lemma Agree.reversed_step (h : Agree gs gr (isSuccess payoutId s)) (hg : Handles payoutId gr site s s') :
    Agree gs (gr.next payoutId (.stmt site w s s')) (isSuccess payoutId s') := by
  cases site with
  | handleTransferEventFind r =>
    obtain ⟨hundecided, rfl⟩ := hg
    refine ⟨h.success, h.reversed, h.unpaid, fun hf => ?_, h.kept, fun hd => ?_⟩
    · rcases Bool.or_eq_true_iff.mp hf with hf | hf
      · exact h.found hf
      · by_contra hd
        rw [h.unpaid (by simpa using hd)] at hf
        cases hf
    · have : gr.decided = true := hd
      rw [hundecided] at this; cases this
  | markSucceededTransaction id =>
    have := hg.1.symm.trans h.reversed
    cases this
  | handleTransferEventReversed id =>
    have hdecided := h.found hg.2
    refine ⟨h.success, h.reversed, fun hd => ?_, fun _ => hdecided, fun _ hd => ?_, fun hd => ?_⟩
    · rw [hdecided] at hd; cases hd
    · simpa [Handling.next] using hd
    · exact ⟨by simpa [Handling.next] using hd, hg.2⟩
  | _ =>
    have hsame : isSuccess payoutId s' = isSuccess payoutId s := hg
    rw [hsame]; exact h

/-- The two calls keep to what they know, and agree with the payout's status. -/
structure Handled (payoutId : Uuid) (reference : String) (p : Pool App TransferOutcome Unit) :
    Prop where
  watched : (handling payoutId reference).WatchesAll p
  bears : Bears payoutId reference p.store
  agree : ∃ rs rr, p.runs = [rs, rr] ∧ Agree ((handling payoutId reference).at_ rs)
    ((handling payoutId reference).at_ rr) (isSuccess payoutId p.store)

variable {p p' : Pool App TransferOutcome Unit} {reason : TransferOutcome → Option String}

/-- One of the two calls goes on; what it now knows still agrees. -/
lemma agree_put {i : ℕ} {r r' : Run App TransferOutcome} {paid : Bool} (hr : p.live i = some r)
    (h : ∃ rs rr, p.runs = [rs, rr] ∧ Agree ((handling payoutId reference).at_ rs)
      ((handling payoutId reference).at_ rr) (isSuccess payoutId p.store))
    (hs : ∀ gr, Agree ((handling payoutId reference).at_ r) gr (isSuccess payoutId p.store) →
      Agree ((handling payoutId reference).at_ r') gr paid)
    (hr' : ∀ gs, Agree gs ((handling payoutId reference).at_ r) (isSuccess payoutId p.store) →
      Agree gs ((handling payoutId reference).at_ r') paid) :
    ∃ rs rr, (p.put i r').runs = [rs, rr] ∧ Agree ((handling payoutId reference).at_ rs)
      ((handling payoutId reference).at_ rr) paid := by
  obtain ⟨rs, rr, hruns, hagree⟩ := h
  have hi := (live_eq_some.mp hr).1
  rw [hruns] at hi
  simp only [Pool.put, hruns]
  rcases i with _ | _ | i
  · obtain rfl : rs = r := Option.some.inj hi
    exact ⟨r', rr, rfl, hs _ hagree⟩
  · obtain rfl : rr = r := Option.some.inj hi
    exact ⟨rs, r', rfl, hr' _ hagree⟩
  · simp at hi

/-- **Every event keeps the two calls in agreement with the payout.** -/
theorem handled_step {ev : Event App TransferOutcome Db} (h : Handled payoutId reference p)
    (hs : step (transferEvents reference reason) p ev = some p') : Handled payoutId reference p' := by
  have hrely : (handling payoutId reference).Relies p ev := by
    cases ev <;> first
      | trivial
      | exact fun _ _ _ _ _ _ => h.bears
  have hwatched : (handling payoutId reference).WatchesAll p' :=
    Monitor.watchesAll_step h.watched (fun l x hx => by cases hx) hrely hs
  -- what is not a statement teaches a call nothing
  have hquiet : ∀ {i r r'}, p.live i = some r → p'.runs = (p.put i r').runs →
      (handling payoutId reference).at_ r' = (handling payoutId reference).at_ r →
      p'.store = p.store → Handled payoutId reference p' := by
    intro i r r' hr hruns hat hstore
    refine ⟨hwatched, hstore ▸ h.bears, ?_⟩
    rw [hruns, hstore]
    exact agree_put hr h.agree (fun _ h => hat ▸ h) fun _ h => hat ▸ h
  have hstmt : ∀ {i r r' site w}, p.live i = some r →
      (handling payoutId reference).at_ r' =
        ((handling payoutId reference).at_ r).next payoutId (.stmt site w p.store p'.store) →
      Handles payoutId ((handling payoutId reference).at_ r) site p.store p'.store →
      Bears payoutId reference p'.store → p'.runs = (p.put i r').runs →
      Handled payoutId reference p' := by
    intro i r r' site w hr hat hg hb hruns
    refine ⟨hwatched, hb, ?_⟩
    rw [hruns]
    exact agree_put hr h.agree (fun _ h => hat ▸ h.success_step hg) fun _ h =>
      hat ▸ h.reversed_step hg
  cases ev with
  | start l => obtain ⟨x, hx, -⟩ := step_start hs; cases hx
  | exec i w =>
    obtain ⟨r, nm, eff, k, hr, hp, rfl⟩ := step_exec hs
    have hguar := h.watched.guar hr hp h.bears w
    exact hstmt (w := w) hr (Monitor.at_goes _ _) hguar.1 hguar.2 rfl
  | lost i w e =>
    obtain ⟨r, nm, eff, k, hr, hp, rfl⟩ := step_lost hs
    have hguar := h.watched.guar hr hp h.bears w
    exact hstmt (w := w) hr (Monitor.at_goes _ _) hguar.1 hguar.2 rfl
  | fail i e =>
    obtain ⟨r, nm, eff, k, hr, hp, rfl⟩ := step_fail hs
    exact hquiet hr rfl (Monitor.at_goes _ _) rfl
  | send i =>
    obtain ⟨r, q, k, hr, hp, ha, rfl⟩ := step_send hs
    exact hquiet hr rfl (Monitor.at_sent _) rfl
  | answer i o =>
    obtain ⟨r, q, k, hr, hp, ha, -, rfl⟩ := step_answer hs
    exact hquiet hr rfl (Monitor.at_goes _ _) rfl
  | finish i =>
    obtain ⟨r, res, hr, -, rfl⟩ := step_finish hs
    exact hquiet hr rfl rfl rfl
  | crash i =>
    obtain ⟨r, hr, rfl⟩ := step_crash hs
    exact hquiet hr rfl rfl rfl
  | move v =>
    obtain ⟨s, x, hm, rfl⟩ := step_move hs
    obtain ⟨_, helse, heq⟩ := Option.map_eq_some_iff.mp hm
    cases heq
    obtain ⟨hk, -, -, hpay⟩ := elsewhere_keeps helse
    have hsame : isSuccess payoutId s = isSuccess payoutId p.store := by
      simp only [isSuccess, hpay]
    refine ⟨hwatched, ?_, ?_⟩
    · obtain ⟨q, hq, hid, href, a, ha, haid⟩ := h.bears
      exact ⟨q, by rw [hpay]; exact hq, hid, href, a, hk.ledgerAccounts.subset ha, haid⟩
    · simp only [hsame]; exact h.agree

/-! ### The outcome -/

/-- The call looked the payout up while it was `SUCCESS`. -/
def looksUpSuccess (payoutId : Uuid) : Did App → Bool
  | .stmt (.handleTransferEventFind _) _ s _ => isSuccess payoutId s
  | _ => false

/-- The reversal's call found the payout `SUCCESS`. -/
def ReversalFindsSuccess (payoutId : Uuid) (p : Pool App TransferOutcome Unit) : Prop :=
  ∃ r, p.runs[1]? = some r ∧ r.log.any (looksUpSuccess payoutId) = true

/-- The payout is not `SUCCESS`, and what its postings took off its account is nothing. -/
def OwedAgain (payout : Payout) (db : Db) : Prop :=
  (∀ row ∈ db.payouts.rows, row.id = payout.id → row.status ≠ .SUCCESS) ∧
  payoutNet db payout.ledgerAccountId payout.transactionId = 0

lemma found_eq (r : Run App TransferOutcome) :
    ((handling payoutId reference).at_ r).found = r.log.any (looksUpSuccess payoutId) := by
  have hfold : ∀ (log : List (Did App)) (g : Handling),
      (log.foldl (Handling.next payoutId) g).found =
        (g.found || log.any (looksUpSuccess payoutId)) := by
    intro log
    induction log with
    | nil => simp
    | cons d log ih =>
      intro g
      rw [List.foldl_cons, ih, List.any_cons, ← Bool.or_assoc]
      congr 1
      rcases d with ⟨site, w, s, s'⟩ | _ | _ | _
      · cases site <;> simp [Handling.next, looksUpSuccess]
      all_goals simp [Handling.next, looksUpSuccess]
  rw [Monitor.at_]
  exact (hfold r.log _).trans (Bool.false_or _)

lemma processed_decided (h : Handled payoutId reference p) {r : Run App TransferOutcome}
    (hr : r ∈ p.runs) (hret : r.prog = .ret ())
    (hdue : ((handling payoutId reference).at_ r).outcome = .success ∨
      ((handling payoutId reference).at_ r).found = true) :
    ((handling payoutId reference).at_ r).decided = true := by
  exact (h.watched r hr).of_ret hret rfl hdue

/-- Once both calls ended, the payout is `SUCCESS` exactly if the reversal did not find it so. -/
theorem handled_outcome (h : Handled payoutId reference p) (hs : Processed p 0) (hr : Processed p 1) :
    isSuccess payoutId p.store = false ↔ ReversalFindsSuccess payoutId p := by
  obtain ⟨rs, hrs, hsret⟩ := hs
  obtain ⟨rr, hrr, hrret⟩ := hr
  obtain ⟨rs', rr', hruns, hagree⟩ := h.agree
  rw [hruns] at hrs hrr
  obtain rfl : rs' = rs := Option.some.inj hrs
  obtain rfl : rr' = rr := Option.some.inj hrr
  have hpaid := processed_decided h (by rw [hruns]; simp) hsret (.inl hagree.success)
  have hfinds : ReversalFindsSuccess payoutId p ↔
      ((handling payoutId reference).at_ rr').found = true := by
    rw [found_eq, ReversalFindsSuccess, hruns]
    simp
  rw [hfinds]
  constructor
  · intro hnot
    by_contra hf
    have hundecided : ((handling payoutId reference).at_ rr').decided = false := by
      by_contra hd
      exact hf (hagree.back (by simpa using hd)).2
    rw [hagree.kept hpaid hundecided] at hnot
    cases hnot
  · intro hf
    have hback := processed_decided h (by rw [hruns]; simp) hrret (.inr hf)
    exact (hagree.back hback).1

lemma told_steady (db : Db) :
    Steady Keeps Change (fun _ _ => True) (told reference reason db) := by
  have hrefl : ∀ s : App.Store, Keeps s s := Keeps.refl
  refine steady_new hrefl fun r hr => ?_
  simp only [told, List.mem_cons, List.not_mem_nil, or_false] at hr
  rcases hr with rfl | rfl
  · exact ⟨_, _, rfl, handleTransferEvent_sound⟩
  · exact ⟨_, _, rfl, handleTransferEvent_sound⟩

/-- What is owed stays as it was, and the books stay sound. -/
lemma told_keeps {db : Db} (harises : Arises db)
    (h : Reach (transferEvents reference reason) anyEvent (told reference reason db) p) :
    Keeps db p.store ∧ Sane p.store := by
  have hmove : ∀ {v s x s' x'}, (transferEvents reference reason).move v s x = some (s', x') →
      elsewhere v s = some s' := fun hm => by
    obtain ⟨_, h, heq⟩ := Option.map_eq_some_iff.mp hm
    cases heq; exact h
  have hentry : ∀ o s, Obeys (books (fun _ _ => True) TransferOutcome) (fun _ _ => True)
    ((transferEvents reference reason).entry o) s := fun o s => handleTransferEvent_sound
  refine (steady_keeps (G := Keeps) (J := fun s => Keeps db s ∧ Sane s) Keeps.refl
    (fun _ _ _ => Keeps.trans) hentry
    (fun v s x s' x' hm => (elsewhere_keeps (hmove hm)).1) (fun p ev _ => ?_)
    (fun s s' hk hc hJ => ⟨hJ.1.trans hk, change_sane hc hJ.2⟩)
    (fun v s x s' x' hm hJ => ⟨hJ.1.trans (elsewhere_keeps (hmove hm)).1,
      elsewhere_sane (hmove hm) hJ.2⟩) (told_steady db) h ⟨.refl _, harises.sane⟩).2
  cases ev <;> simp [Meets]

lemma told_handled {db : Db} (harises : Arises db) {payout : Payout} (hmem : payout ∈ db.payouts.rows)
    (hstatus : payout.status = .PROCESSING) (href : payout.transferReference = some reference) :
    Handled payout.id reference (told reference reason db) := by
  obtain ⟨a, ha, haid, -⟩ := harises.sane.1.payouts payout hmem
  have hunpaid : isSuccess payout.id db = false := by rw [isSuccess_eq hmem, hstatus]; rfl
  refine ⟨Monitor.watchesAll_new fun r hr => ?_, ⟨payout, hmem, rfl, href, a, ha, haid⟩, _, _, rfl, ?_⟩
  · simp only [told, List.mem_cons, List.not_mem_nil, or_false] at hr
    rcases hr with rfl | rfl
    · exact ⟨_, _, rfl, handleTransferEvent_handles (by decide)⟩
    · exact ⟨_, _, rfl, handleTransferEvent_handles (by decide)⟩
  · exact ⟨rfl, rfl, fun _ => hunpaid, nofun, nofun, nofun⟩

/-- **A reversal is not lost exactly if its call finds the payout `SUCCESS`.** -/
theorem reversal_kept_iff {db : Db} (harises : Arises db) {payout : Payout}
    (hmem : payout ∈ db.payouts.rows) (hstatus : payout.status = .PROCESSING)
    (href : payout.transferReference = some reference)
    (h : Reach (transferEvents reference reason) anyEvent (told reference reason db) p)
    (hs : Processed p 0) (hr : Processed p 1) :
    OwedAgain payout p.store ↔ ReversalFindsSuccess payout.id p := by
  have hhandled : Handled payout.id reference p :=
    h.keeps (fun _ _ _ h _ hs => handled_step h hs) (told_handled harises hmem hstatus href)
  obtain ⟨hk, hsane⟩ := told_keeps harises h
  obtain ⟨row, hrow, hob⟩ := mem_map_of_prefix hk.payouts hmem
  simp only [obligation, Obligation.mk.injEq] at hob
  obtain ⟨hid, hacc, htx, -⟩ := hob
  have hpaid : isSuccess payout.id p.store = (row.status == .SUCCESS) := hid ▸ isSuccess_eq hrow
  rw [← handled_outcome hhandled hs hr, hpaid]
  constructor
  · intro hnot
    simpa using hnot.1 row hrow hid
  · intro hnot
    have hstatus' : row.status ≠ .SUCCESS := by simpa using hnot
    refine ⟨fun row' hrow' hid' => ?_, ?_⟩
    · rw [payout_eq hrow' hrow (hid'.trans hid.symm)]; exact hstatus'
    · rw [← hacc, ← htx, hsane.payoutNet_eq hrow, if_neg hstatus']

/-! ### Two runs: the success first; and the reversal first -/

/-- A payment settled, and the first attempt at one of its payouts under way. -/
def settledAndPending : List (Event App Operation Db) :=
  .start (.settle "pay_1") :: execs 0 [1] ++ asks 0 agreeable ++ execs 0 [2, 3] ++
    asks 0 agreeable ++ asks 0 agreeable ++ execs 0 [4] ++
    .start (.processPayout (uid 3005)) :: execs 1 [5, 6, 7] ++ asks 1 agreeable ++ execs 1 [8] ++
    asks 1 (fun q => match q with | .initiateTransfer _ => .ok ⟨.pending, none⟩ | q => agreeable q)

def pendingReference : String := transferReference (uid 3005) 1

def noReason : TransferOutcome → Option String := fun _ => none

def successHandled : List (Event App TransferOutcome Db) := execs 0 [9, 10, 11]

def reversalHandled : List (Event App TransferOutcome Db) := execs 1 [12, 13] ++ asks 1 agreeable

def ends (p : Pool App TransferOutcome Unit) (i : ℕ) : Bool :=
  p.runs[i]?.any fun r => match r.prog with | .ret () => true | _ => false

lemma processed_of_ends {i : ℕ} (h : ends p i = true) : Processed p i := by
  obtain ⟨r, hr, h⟩ := (Option.any_eq_true _ _).mp h
  refine ⟨r, hr, ?_⟩
  split at h
  · assumption
  · cases h

/-- The payout under way in a database. -/
def isPending (payout : Payout) : Bool :=
  payout.status == .PROCESSING && payout.transferReference == some pendingReference

/-- Both calls handled in the order given, on a payout under way; what is left satisfies `c`. -/
lemma handled_run {l : List (Event App TransferOutcome Db)} {c : Payout → Db → Bool}
    (h : ((run services ⟨sampleDb, (), []⟩ settledAndPending).any fun p =>
      p.store.payouts.rows.any fun payout => isPending payout &&
        (run (transferEvents pendingReference noReason) (told pendingReference noReason p.store) l).any
          fun q => ends q 0 && ends q 1 && c payout q.store) = true) :
    ∃ db payout q, Arises db ∧ payout ∈ db.payouts.rows ∧ payout.status = .PROCESSING ∧
      payout.transferReference = some pendingReference ∧
      Reach (transferEvents pendingReference noReason) anyEvent
        (told pendingReference noReason db) q ∧
      Processed q 0 ∧ Processed q 1 ∧ c payout q.store = true := by
  obtain ⟨p, hp, h⟩ := (Option.any_eq_true _ _).mp h
  obtain ⟨payout, hmem, h⟩ := List.any_eq_true.mp h
  rw [Bool.and_eq_true] at h
  obtain ⟨hpending, h⟩ := h
  obtain ⟨q, hq, h⟩ := (Option.any_eq_true _ _).mp h
  simp only [Bool.and_eq_true] at h
  simp only [isPending, Bool.and_eq_true, beq_iff_eq] at hpending
  exact ⟨p.store, payout, q, ⟨_, p, rfl, rfl, rfl, reach_of_run (along_any _) hp, rfl⟩, hmem,
    hpending.1, hpending.2, reach_of_run (along_any _) hq, processed_of_ends h.1.1,
    processed_of_ends h.1.2, h.2⟩

theorem reversal_kept_iff_sample : ∃ payout q,
    Processed q 0 ∧ Processed q 1 ∧ (OwedAgain payout q.store ↔ ReversalFindsSuccess payout.id q) := by
  obtain ⟨db, payout, q, harises, hmem, hstatus, href, hreach, hs, hr, -⟩ :=
    handled_run (c := fun _ _ => true) (l := successHandled ++ reversalHandled) (by decide +kernel)
  exact ⟨payout, q, hs, hr, reversal_kept_iff harises hmem hstatus href hreach hs hr⟩

/-- A reversal handled beside its success is never lost. -/
def ReversalsKept : Prop := ∀ reference reason db, Arises db → ∀ payout ∈ db.payouts.rows,
  payout.status = .PROCESSING → payout.transferReference = some reference →
  ∀ p, Reach (transferEvents reference reason) anyEvent (told reference reason db) p →
    Processed p 0 → Processed p 1 → OwedAgain payout p.store

/-- Handled before its success, the reversal leaves the payout `SUCCESS` in the end. -/
theorem reversal_lost : ¬ ReversalsKept := by
  intro hkept
  obtain ⟨db, payout, q, harises, hmem, hstatus, href, hreach, hs, hr, hpaid⟩ :=
    handled_run (c := fun payout db => isSuccess payout.id db)
      (l := reversalHandled ++ successHandled) (by decide +kernel)
  have howed := hkept _ _ db harises payout hmem hstatus href q hreach hs hr
  simp only [isSuccess, List.any_eq_true, Bool.and_eq_true, beq_iff_eq] at hpaid
  obtain ⟨row, hrow, hid, hsuccess⟩ := hpaid
  exact howed.1 row hrow hid hsuccess

end Splitcore.Money
