import Splitcore.Money.Services
import Splitcore.Money.References

/-!
What each run knows about the attempts at a payout, and what it may write knowing that.

A run of `processPayout` reads a payout, finds that its last attempt moved no money, claims
the next attempt and sends it. A run of `handleTransferEvent` reads the payout its reference
belongs to. The monitor `tracking` follows them; the invariants about attempts use only what
it says of each statement.
-/

namespace Splitcore.Money

open Relational Interleaving Ledger

/-! ### Attempts -/

/-- The reference a payout carries after `n` attempts. -/
def referenceAt (payoutId : Uuid) (n : ℕ) : Option String :=
  if n = 0 then none else some (transferReference payoutId n)

/-- Every payout carries the reference of its last attempt. -/
def RefsAgree (db : Db) : Prop :=
  ∀ p ∈ db.payouts.rows, p.transferReference = referenceAt p.id p.attempts

/-- The columns that only a claim writes. -/
def attemptOf (p : Payout) : Uuid × ℤ × ℕ × Option String :=
  (p.id, p.amountKobo, p.attempts, p.transferReference)

/-- What a run knows of the attempts at a payout: the row it read; that the attempt in it moved
no money; that it claimed the next one; that it asked the provider to make it. -/
inductive Knows where
  | nothing
  | read (payout : Payout)
  | cleared (payout : Payout)
  | holding (payout : Payout)
  | sent (payout : Payout)

namespace Knows

/-- The payout and the attempt the run acts on. -/
def attempt : Knows → Option (Uuid × ℕ)
  | nothing => none
  | read p | cleared p => some (p.id, p.attempts)
  | holding p | sent p => some (p.id, p.attempts + 1)

def movedNoMoney : TransferVerification.Status → Bool
  | .failed | .reversed | .not_found => true
  | .success | .pending | .requires_action => false

/-- The statement took the payout from the attempt the run read to the next. -/
def raises (p : Payout) (db db' : Db) : Bool :=
  db.payouts.rows.any (fun q => q.id == p.id && q.attempts == p.attempts) &&
    db'.payouts.rows.any (fun q => q.id == p.id && q.attempts == p.attempts + 1)

def ofFound : Option Payout → Knows
  | some p => read p
  | none => nothing

/-- Without an attempt there is nothing to verify. -/
def verifiedIfNew : Knows → Knows
  | read p => if p.transferReference = none then cleared p else read p
  | g => g

def verified (reference : String) (status : TransferVerification.Status) : Knows → Knows
  | read p => if p.transferReference = some reference ∧ movedNoMoney status then cleared p else read p
  | g => g

def claims (db db' : Db) : Knows → Knows
  | cleared p => if raises p db db' then holding p else cleared p
  | g => g

def sends : Knows → Knows
  | holding p => sent p
  | g => g

/-- What throws does not send what it claimed. -/
def throws : Knows → Knows
  | holding _ => nothing
  | g => g

def next (g : Knows) : Did App → Knows
  | .stmt (.processPayoutFind id) _ s _ => (ofFound (s.payouts.find (·.id == id))).verifiedIfNew
  | .stmt (.handleTransferEventFind reference) _ s _ =>
    ofFound (s.payouts.find (·.transferReference == some reference))
  | .stmt (.processPayoutClaim _) _ s s' => g.claims s s'
  | .answered (.verifyTransfer reference) (.ok status) => g.verified reference status
  | .asked (.initiateTransfer _) => g.sends
  | .failed _ _ => g.throws
  | .answered _ (.error _) => g.throws
  | _ => g

end Knows

/-! ### What a statement may write -/

/-- The statements that select a payout whatever its attempt. -/
def unfenced : Site → Option Uuid
  | .processPayoutHold id | .processPayoutRecipient id | .flagForOperator id
  | .markForReview id => some id
  | _ => none

/-- What a statement does to payouts and to the ledger, by a run that knows `g`. -/
inductive Acts (g : Knows) (site : Site) (db db' : Db) : Prop
  | same (hpayouts : db'.payouts = db.payouts) (hpostings : db'.postings = db.postings)
  /-- A settlement. -/
  | added (hg : g.attempt = none) (rows : List Payout)
      (hrows : db'.payouts.rows = db.payouts.rows ++ rows) (huntried : ∀ p ∈ rows, Untried p)
  /-- The next attempt is claimed, on the row as the run read it. -/
  | claimed (payout : Payout) (hg : g = .cleared payout) (hsite : site = .processPayoutClaim payout.id)
      (guard : Payout → Bool) (update : Payout → Payout)
      (ht : db.payouts.update guard update = some db'.payouts)
      (hguard : ∀ p, guard p = true → p.id = payout.id ∧ p.attempts = payout.attempts)
      (hfound : ∃ p ∈ db.payouts.rows, guard p = true)
      (hupdate : ∀ p, guard p = true → attemptOf (update p) =
        (p.id, p.amountKobo, p.attempts + 1, referenceAt p.id (p.attempts + 1)))
  /-- The state of a payout: selected whatever its attempt, by a run that acts on none, or by
  the reference of the attempt the run acts on. -/
  | changed (id : Uuid) (guard : Payout → Bool) (update : Payout → Payout)
      (ht : db.payouts.update guard update = some db'.payouts)
      (hguard : ∀ p, guard p = true → p.id = id)
      (hfound : ∃ p ∈ db.payouts.rows, guard p = true)
      (hkeeps : ∀ p, attemptOf (update p) = attemptOf p)
      (hfence : unfenced site = some id ∨ g.attempt = none ∨ ∃ n, g.attempt = some (id, n) ∧
        ∀ p, guard p = true → p.transferReference = some (transferReference id n))

/-- Every run sends only the attempt it holds, and writes as it may. -/
def tracking (L : Type) : Monitor App L where
  State := Knows
  init _ _ := .nothing
  next := Knows.next
  rely _ _ s := RefsAgree s
  guar g site _ s s' := Acts g site s s'
  query g q := match q with
    | .initiateTransfer params => ∃ p, g = .holding p ∧ params.payoutId = p.id ∧
        params.amountKobo = p.amountKobo ∧
        params.reference = transferReference p.id (p.attempts + 1)
    | _ => True

/-! ### Rules -/

section Rules

variable {L α β : Type} {g : Knows} {site : Site}

/-- The program keeps to what it knows. -/
def Tracks (L : Type) (p : Prog App α) (g : Knows) : Prop :=
  Obeys (tracking L) (fun _ _ => True) p g

lemma tracks_ret {a : α} : Tracks L (.ret a) g := trivial

lemma tracks_raise {e : Err} : Tracks L (.raise e : Prog App α) g := trivial

lemma tracks_query {f : Db → α} {k : α → Prog App β}
    (h : ∀ w s, RefsAgree s → Tracks L (k (f s)) (g.next (.stmt site w s s))) :
    Tracks L (query site f >>= k) g :=
  obeys_bind.mpr <| obeys_query (fun w s hr => ⟨.same rfl rfl, h w s hr⟩) fun _ _ => trivial

lemma tracks_statement {m : Tx α} {k : α → Prog App β}
    (h : ∀ w s a s', RefsAgree s → m.run w s = .ok (a, s') →
      Acts g site s s' ∧ Tracks L (k a) (g.next (.stmt site w s s'))) :
    Tracks L (statement site m >>= k) g :=
  obeys_bind.mpr <| obeys_command (fun w s a s' hr hm => h w s a s' hr hm)
    (fun _ _ _ _ _ => .same rfl rfl) fun _ _ => trivial

lemma tracks_statement_last {m : Tx α}
    (h : ∀ w s a s', RefsAgree s → m.run w s = .ok (a, s') → Acts g site s s') :
    Tracks L (statement site m) g :=
  obeys_command (fun w s a s' hr hm => ⟨h w s a s' hr hm, trivial⟩)
    (fun _ _ _ _ _ => .same rfl rfl) fun _ _ => trivial

lemma tracks_request {q : Ask} {k : Ans q → Prog App β} (hq : (tracking L).query g q)
    (h : ∀ a, Tracks L (k a) ((g.next (.asked q)).next (.answered q (.ok a)))) :
    Tracks L (request q >>= k) g := by
  refine obeys_bind.mpr (obeys_request hq fun a => ?_)
  rcases a with e | a
  · trivial
  · exact h a

lemma tracks_request_last {q : Ask} (hq : (tracking L).query g q) : Tracks L (request q) g :=
  obeys_request hq fun _ => trivial

lemma tracks_ofExcept {r : Except Err α} {k : α → Prog App β}
    (h : ∀ a, r = .ok a → Tracks L (k a) g) : Tracks L (.ofExcept r >>= k) g := by
  rcases r with e | a
  · trivial
  · exact h a rfl

end Rules

/-! ### The payout service -/

section Programs

variable {L α : Type} {g : Knows} {site : Site} {s s' : Db} {w : Input} {σ σ' : Db × ℕ}

lemma acts_updateMany {id : Uuid} {guard : Payout → Bool} {update : Payout → Payout} {n : ℕ}
    (h : Model.payout.updateMany guard update w σ = .ok (n, σ'))
    (hguard : ∀ p, guard p = true → p.id = id)
    (hkeeps : ∀ p, attemptOf (update p) = attemptOf p)
    (hfence : unfenced site = some id ∨ g.attempt = none ∨ ∃ n, g.attempt = some (id, n) ∧
      ∀ p, guard p = true → p.transferReference = some (transferReference id n)) :
    Acts g site σ.1 σ'.1 := by
  by_cases hn : n = 0
  · subst hn
    rw [Model.updateMany_zero h]; exact .same rfl rfl
  · have hfound := Model.updateMany_pos h hn
    obtain ⟨-, t, ht, rfl⟩ := Model.updateMany_ok h
    exact .changed id guard update ht hguard hfound hkeeps hfence

lemma acts_update {id : Uuid} {guard : Payout → Bool} {update : Payout → Payout} {u : Unit}
    (h : Model.payout.update guard update w σ = .ok (u, σ'))
    (hguard : ∀ p, guard p = true → p.id = id)
    (hkeeps : ∀ p, attemptOf (update p) = attemptOf p) (hfence : unfenced site = some id) :
    Acts g site σ.1 σ'.1 := by
  simp only [Model.update, Tx.bind_ok] at h
  obtain ⟨n, σ₁, hupd, h⟩ := h
  split at h
  · simp at h
  · simp only [Tx.pure_ok] at h
    rw [← h.2]
    exact acts_updateMany hupd hguard hkeeps (.inl hfence)

/-- A delivery or a return, selected by the reference of the attempt the run acts on. -/
lemma acts_claimAndPost {id transactionId : Uuid} {guard : Payout → Bool} {update : Payout → Payout}
    {origin : Origin} {entries : List LedgerEntrySpec} {b : Bool} {n m : ℕ}
    (h : claimAndPost guard update origin transactionId entries w (s, 0) = .ok (b, s', m))
    (hguard : ∀ p, guard p = true → p.id = id ∧ p.transferReference = some (transferReference id n))
    (hkeeps : ∀ p, attemptOf (update p) = attemptOf p) (hg : g.attempt = some (id, n)) :
    Acts g site s s' := by
  rcases claimAndPost_ok h with ⟨rfl, -⟩ |
    ⟨row, hrow, hgrow, payouts', accounts', es, hupd, -, hafter, -⟩
  · exact .same rfl rfl
  · have hpayouts : s'.payouts = payouts' := congrArg Db.payouts hafter
    exact .changed id guard update (hpayouts ▸ hupd) (fun p hp => (hguard p hp).1)
      ⟨row, hrow, hgrow⟩ hkeeps (.inr (.inr ⟨n, hg, fun p hp => (hguard p hp).2⟩))

lemma markSucceeded_tracks {payoutId : Uuid} {reference : String} {n : ℕ}
    (hg : g.attempt = some (payoutId, n)) (href : reference = transferReference payoutId n) :
    Tracks L (markSucceeded payoutId reference) g := by
  refine tracks_query fun w s _ => ?_
  rcases payoutWithAccount (·.id == payoutId) s with _ | ⟨payout, account⟩
  · exact tracks_raise
  refine tracks_ofExcept fun entries _ => tracks_statement fun w s b s' _ hm => ⟨?_, tracks_ret⟩
  obtain ⟨m, hm⟩ := Tx.run_ok.mp hm
  simp only [markSucceededTransaction, Tx.bind_ok, Tx.now_ok] at hm
  obtain ⟨_, _, ⟨rfl, rfl⟩, hm⟩ := hm
  refine acts_claimAndPost hm (fun p hp => ?_) (fun _ => rfl) hg
  simp only [Bool.and_eq_true, beq_iff_eq] at hp
  exact ⟨hp.1.1, hp.1.2.trans (congrArg some href)⟩

lemma markForReview_tracks {payoutId : Uuid} {reason : String} :
    Tracks L (markForReview payoutId reason) g := by
  refine tracks_statement_last fun w s a s' _ hm => ?_
  obtain ⟨n, h⟩ := Tx.run_ok.mp hm
  simp only [Tx.bind_ok, Tx.now_ok, Tx.pure_ok] at h
  obtain ⟨_, _, ⟨rfl, rfl⟩, c, σ₁, hupd, -, rfl⟩ := h
  refine acts_updateMany hupd (fun p hp => ?_) (fun _ => rfl) (.inl rfl)
  simp only [Bool.and_eq_true, beq_iff_eq] at hp
  exact hp.1

lemma flagForOperator_tracks {payoutId : Uuid} : Tracks L (flagForOperator payoutId) g := by
  refine tracks_statement_last fun w s a s' _ hm => ?_
  obtain ⟨n, h⟩ := Tx.run_ok.mp hm
  simp only [Tx.bind_ok, Tx.now_ok] at h
  obtain ⟨_, _, ⟨rfl, rfl⟩, hupd⟩ := h
  exact acts_update hupd (fun p hp => by simpa using hp) (fun _ => rfl) rfl

lemma enqueue_tracks {payoutId : Uuid} {delay : ℕ} : Tracks L (enqueue payoutId delay) g :=
  tracks_request_last trivial

lemma retryOrReview_tracks {payout : Payout} {outcome : TransferOutcome} {reason : Option String} :
    Tracks L (retryOrReview payout outcome reason) g := by
  unfold retryOrReview
  split
  · exact markForReview_tracks
  · exact enqueue_tracks

/-- The row a reference finds carries the reference of its last attempt. -/
lemma reference_of_found {reference : String} {p : Payout} (hagree : RefsAgree s)
    (hp : p ∈ s.payouts.rows) (href : p.transferReference = some reference) :
    reference = transferReference p.id p.attempts := by
  have h := (hagree p hp).symm.trans href
  unfold referenceAt at h
  split at h
  · cases h
  · exact (Option.some.inj h).symm

lemma payoutWithAccount_find {p : Payout → Bool} {payout : Payout} {account : LedgerAccount}
    (h : payoutWithAccount p s = some (payout, account)) : s.payouts.find p = some payout := by
  simp only [payoutWithAccount, Option.bind_eq_bind, Option.bind_eq_some_iff, Option.pure_def,
    Option.some.injEq, Prod.mk.injEq] at h
  obtain ⟨p', hp', a, ha, rfl, rfl⟩ := h
  exact hp'

lemma retrying_tracks {payout : Payout} {reference : String} {outcome : TransferOutcome}
    {reason : Option String} {k : Unit → Prog App Unit} {n : ℕ}
    (hg : g.attempt = some (payout.id, n)) (href : reference = transferReference payout.id n)
    (hk : Tracks L (k ()) g) : Tracks L (retrying payout.id reference outcome reason >>= k) g := by
  refine tracks_statement fun w s a s' _ hm => ⟨?_, hk⟩
  obtain ⟨m, h⟩ := Tx.run_ok.mp hm
  simp only [Tx.bind_ok, Tx.now_ok, Tx.pure_ok] at h
  obtain ⟨_, _, ⟨rfl, rfl⟩, c, σ₁, hupd, -, rfl⟩ := h
  refine acts_updateMany hupd (fun p hp => ?_) (fun _ => rfl) (.inr (.inr ⟨n, hg, fun p hp => ?_⟩))
  · simp only [Bool.and_eq_true, beq_iff_eq] at hp
    exact hp.1.1
  · simp only [Bool.and_eq_true, beq_iff_eq] at hp
    exact hp.1.2.trans (congrArg some href)

theorem handleTransferEvent_tracks {reference : String} {outcome : TransferOutcome}
    {reason : Option String} : Tracks L (handleTransferEvent reference outcome reason) g := by
  refine tracks_query fun w s hagree => ?_
  rcases hfound : payoutWithAccount (·.transferReference == some reference) s
    with _ | ⟨payout, account⟩
  · exact tracks_ret
  have hfind := payoutWithAccount_find hfound
  have href : reference = transferReference payout.id payout.attempts :=
    reference_of_found hagree (Table.mem_of_find hfind) (by simpa using Table.of_find hfind)
  have hstate : g.next (.stmt (.handleTransferEventFind reference) w s s) = .read payout := by
    simp only [Knows.next, hfind, Knows.ofFound]
  rw [hstate]
  simp only
  split
  · exact markSucceeded_tracks rfl href
  split
  · refine tracks_ofExcept fun entries _ => tracks_statement fun w s b s' _ hm => ⟨?_, ?_⟩
    · obtain ⟨m, hm⟩ := Tx.run_ok.mp hm
      simp only [reversedTransaction, Tx.bind_ok, Tx.now_ok] at hm
      obtain ⟨_, _, ⟨rfl, rfl⟩, hm⟩ := hm
      refine acts_claimAndPost hm (fun p hp => ?_) (fun _ => rfl) rfl
      simp only [Bool.and_eq_true, beq_iff_eq] at hp
      exact ⟨hp.1.1, hp.2.trans (congrArg some href)⟩
    · split
      · exact retryOrReview_tracks
      · exact tracks_ret
  split
  · exact retrying_tracks rfl href retryOrReview_tracks
  · exact tracks_ret

lemma hold_tracks {payout : Payout} : Tracks L (hold payout) g := by
  unfold hold
  split
  · refine tracks_statement_last fun w s a s' _ hm => ?_
    obtain ⟨n, h⟩ := Tx.run_ok.mp hm
    simp only [Tx.bind_ok, Tx.now_ok, Tx.pure_ok] at h
    obtain ⟨_, _, ⟨rfl, rfl⟩, c, σ₁, hupd, -, rfl⟩ := h
    refine acts_updateMany hupd (fun p hp => ?_) (fun _ => rfl) (.inl rfl)
    simp only [Bool.and_eq_true, beq_iff_eq] at hp
    exact hp.1
  · exact tracks_ret

lemma resolveDestination_tracks {account : LedgerAccount} {k : PayoutDestination → Prog App Unit}
    (hk : ∀ destination, Tracks L (k destination) g) :
    Tracks L (resolveDestination account >>= k) g := by
  refine obeys_bind.mpr ?_
  unfold resolveDestination
  split
  · exact hk _
  · exact obeys_bind.mpr (obeys_query (fun w s _ => ⟨.same rfl rfl, hk _⟩) fun _ _ => trivial)
  · exact obeys_bind.mpr (obeys_query (fun w s _ => ⟨.same rfl rfl, hk _⟩) fun _ _ => trivial)
  · exact hk _

lemma transferAnswered_tracks {payout : Payout} {reference : String} {transfer : Transfer}
    (href : reference = transferReference payout.id (payout.attempts + 1)) :
    Tracks L (transferAnswered payout reference transfer) (.sent payout) := by
  unfold transferAnswered
  split
  · exact markSucceeded_tracks rfl href
  · exact handleTransferEvent_tracks
  · exact handleTransferEvent_tracks
  · exact flagForOperator_tracks
  · exact tracks_ret

lemma sendTransfer_tracks {payout : Payout} {account : LedgerAccount}
    {recipientName bankCode accountNumber transferReason : String} :
    Tracks L (sendTransfer payout account recipientName bankCode accountNumber transferReason)
      (.holding payout) := by
  refine tracks_request trivial fun code => tracks_statement fun w s a s' _ hm => ⟨?_, ?_⟩
  · obtain ⟨n, h⟩ := Tx.run_ok.mp hm
    simp only [Tx.bind_ok, Tx.now_ok] at h
    obtain ⟨_, _, ⟨rfl, rfl⟩, hupd⟩ := h
    exact acts_update hupd (fun p hp => by simpa using hp) (fun _ => rfl) rfl
  · exact tracks_request ⟨payout, rfl, rfl, rfl, rfl⟩ fun transfer => transferAnswered_tracks rfl

/-- A claim that finds its row raises the attempts. -/
lemma claimAttempt_acts {payout : Payout} {n m : ℕ}
    (h : Model.payout.updateMany
      (fun p => p.id == payout.id && OPEN_STATUSES.contains p.status &&
        p.attempts == payout.attempts)
      (fun p => { p with
        status := .PROCESSING, attempts := payout.attempts + 1
        transferReference := some (transferReference payout.id (payout.attempts + 1))
        attemptedAt := some w.now, failureReason := none, updatedAt := w.now }) w (s, 0)
      = .ok (n, s', m)) :
    Acts (.cleared payout) (.processPayoutClaim payout.id) s s' ∧
      (n ≠ 0 → Knows.raises payout s s' = true) := by
  by_cases hn : n = 0
  · subst hn
    have hsame := congrArg Prod.fst (Model.updateMany_zero h)
    refine ⟨?_, fun hne => absurd rfl hne⟩
    rw [show s' = s from hsame]; exact .same rfl rfl
  · obtain ⟨row, hrow, hguard⟩ := Model.updateMany_pos h hn
    obtain ⟨-, t, ht, hσ⟩ := Model.updateMany_ok h
    obtain rfl : s' = { s with payouts := t } := congrArg Prod.fst hσ
    have hids : ∀ p : Payout, (p.id == payout.id && OPEN_STATUSES.contains p.status &&
        p.attempts == payout.attempts) = true → p.id = payout.id ∧ p.attempts = payout.attempts := by
      intro p hp
      simp only [Bool.and_eq_true, beq_iff_eq] at hp
      exact ⟨hp.1.1, hp.2⟩
    obtain ⟨hrid, hra⟩ := hids row hguard
    refine ⟨.claimed payout rfl rfl _ _ ht hids ⟨row, hrow, hguard⟩ fun p hp => ?_, fun _ => ?_⟩
    · obtain ⟨hid, ha⟩ := hids p hp
      simp [attemptOf, referenceAt, hid, ha]
    · simp only [Knows.raises, Bool.and_eq_true, List.any_eq_true, beq_iff_eq]
      refine ⟨⟨row, hrow, hrid, hra⟩, ?_⟩
      rw [Table.rows_update ht]
      exact ⟨_, List.mem_map_of_mem hrow, by rw [if_pos hguard]; exact ⟨hrid, rfl⟩⟩

lemma newAttempt_tracks {payout : Payout} {account : LedgerAccount} :
    Tracks L (newAttempt payout account) (.cleared payout) := by
  refine resolveDestination_tracks fun destination => ?_
  cases destination with
  | review reason => exact markForReview_tracks
  | hold reason => exact hold_tracks
  | send name bankCode accountNumber reason =>
    refine tracks_statement fun w s n s' _ hm => ?_
    obtain ⟨m, h⟩ := Tx.run_ok.mp hm
    simp only [Tx.bind_ok, Tx.now_ok] at h
    obtain ⟨_, _, ⟨rfl, rfl⟩, h⟩ := h
    obtain ⟨hacts, hraises⟩ := claimAttempt_acts h
    refine ⟨hacts, ?_⟩
    split
    · exact tracks_ret
    · rename_i hn
      have hstate : (Knows.cleared payout).next (.stmt (.processPayoutClaim payout.id) w s s') =
          .holding payout := by
        simp only [Knows.next, Knows.claims, hraises hn, if_true]
      rw [hstate]
      exact sendTransfer_tracks

theorem processPayout_tracks {payoutId : Uuid} : Tracks L (processPayout payoutId) g := by
  refine tracks_query fun w s hagree => ?_
  rcases hfound : payoutWithAccount (·.id == payoutId) s with _ | ⟨payout, account⟩
  · exact tracks_ret
  have hfind := payoutWithAccount_find hfound
  have hrow := Table.mem_of_find hfind
  have hstate : g.next (.stmt (.processPayoutFind payoutId) w s s) =
      if payout.transferReference = none then .cleared payout else .read payout := by
    simp only [Knows.next, hfind, Knows.ofFound, Knows.verifiedIfNew]
  rw [hstate]
  simp only
  split
  · exact tracks_ret
  rcases href : payout.transferReference with _ | reference
  · exact newAttempt_tracks
  -- a stored reference is not empty
  have heq := reference_of_found hagree hrow href
  have hne : reference ≠ "" := by rw [heq]; exact transferReference_ne_empty _ _
  simp only [truthy, Option.filter, hne, ne_eq, not_false_eq_true, decide_true, if_true, reduceCtorEq,
    if_false]
  refine tracks_request trivial fun previous => ?_
  have hverified : ((Knows.read payout).next (.asked (.verifyTransfer reference))).next
      (.answered (.verifyTransfer reference) (.ok previous)) =
      if Knows.movedNoMoney previous then .cleared payout else .read payout := by
    simp [Knows.next, Knows.verified, href]
  rw [hverified]
  cases previous with
  | success => exact markSucceeded_tracks rfl heq
  | pending => exact tracks_ret
  | requires_action => exact flagForOperator_tracks
  | failed | reversed | not_found => exact newAttempt_tracks

end Programs

/-! ### Programs that act on no attempt -/

section Idle

variable {L α β : Type} {site : Site}

/-- The statements that find a payout to act on. -/
def finds : Site → Bool
  | .processPayoutFind _ | .handleTransferEventFind _ => true
  | _ => false

/-- The program knows of no attempt from its start to its end. -/
def Idle (L : Type) (p : Prog App α) : Prop :=
  Obeys (tracking L) (fun g _ => g = .nothing) p .nothing

lemma Idle.tracks {p : Prog App α} (h : Idle L p) : Tracks L p .nothing := h.mono fun _ _ _ => trivial

lemma idle_ret {a : α} : Idle L (.ret a) := rfl

lemma idle_raise {e : Err} : Idle L (.raise e : Prog App α) := rfl

lemma idle_ofExcept {r : Except Err α} : Idle L (.ofExcept r) := obeys_ofExcept.mpr rfl

lemma next_nothing {w : Input} {s s' : Db} (hsite : finds site = false) :
    Knows.next .nothing (.stmt site w s s') = .nothing := by
  cases site <;> first | rfl | cases hsite

lemma idle_bind {p : Prog App α} {f : α → Prog App β} (hp : Idle L p) (hf : ∀ a, Idle L (f a)) :
    Idle L (p >>= f) := by
  refine obeys_bind.mpr (hp.mono fun g r hg => ?_)
  subst hg
  rcases r with e | a
  · rfl
  · exact hf a

lemma idle_attempt {p : Prog App α} (hp : Idle L p) : Idle L p.attempt :=
  obeys_attempt.mpr hp

lemma idle_statement {m : Tx α} (hsite : finds site = false)
    (h : ∀ w s a s', m.run w s = .ok (a, s') → Acts .nothing site s s') :
    Idle L (statement site m) := by
  have hnext : ∀ w s s', (tracking L).next .nothing (.stmt site w s s') = .nothing :=
    fun w s s' => next_nothing hsite
  refine ⟨fun w s _ => ⟨?_, ?_, fun e => ?_⟩, fun e => rfl⟩
  · rcases hm : m.run w s with e | ⟨a, s'⟩
    · simp only [hm]; exact .same rfl rfl
    · simp only [hm]; exact h w s a s' hm
  · rw [hnext]
    exact obeys_ofExcept.mpr rfl
  · rw [hnext]; rfl

lemma idle_query {f : Db → α} (hsite : finds site = false) : Idle L (query site f) := by
  have hnext : ∀ w s s', (tracking L).next .nothing (.stmt site w s s') = .nothing :=
    fun w s s' => next_nothing hsite
  refine ⟨fun w s _ => ⟨.same rfl rfl, hnext w s s, fun e => ?_⟩, fun e => rfl⟩
  rw [hnext]; rfl

lemma idle_request {q : Ask} (hq : ∀ params, q ≠ .initiateTransfer params) : Idle L (request q) := by
  cases q with
  | initiateTransfer params => exact absurd rfl (hq params)
  | _ => exact obeys_request trivial fun a => by cases a <;> rfl

/-- A transaction that leaves payouts and ledger alone. -/
lemma idle_aside {m : Tx α} (hsite : finds site = false)
    (h : ∀ w s a s', m.run w s = .ok (a, s') → s'.payouts = s.payouts ∧ s'.postings = s.postings) :
    Idle L (statement site m) :=
  idle_statement hsite fun w s a s' hm => .same (h w s a s' hm).1 (h w s a s' hm).2

lemma enqueue_idle {payoutId : Uuid} {delay : ℕ} : Idle L (enqueue payoutId delay) :=
  idle_request (by simp)

lemma enqueuePayouts_idle (ids : List Uuid) : Idle L (enqueuePayouts ids) := by
  induction ids with
  | nil => exact idle_ret
  | cons id ids ih => exact idle_bind (idle_attempt (idle_request (by simp))) fun _ => ih

lemma enqueueAll_idle (ids : List Uuid) : Idle L (enqueueAll ids) := by
  induction ids with
  | nil => exact idle_ret
  | cons id ids ih => exact idle_bind enqueue_idle fun _ => ih

lemma reload_idle {id : Uuid} : Idle L (reload id) :=
  idle_aside rfl fun w s a s' hm => by rw [(findUniqueOrThrow_ok hm).2]; exact ⟨rfl, rfl⟩

lemma some_reload_idle {id : Uuid} : Idle L (some <$> reload id) :=
  idle_bind reload_idle fun _ => idle_ret

lemma transition_idle {id : Uuid} {source : List PaymentStatus} {target : PaymentStatus} :
    Idle L (transition id source target) := by
  refine idle_aside rfl fun w s a s' hm => ?_
  obtain ⟨n, h⟩ := Tx.run_ok.mp hm
  simp only [Tx.bind_ok, Tx.now_ok, Tx.pure_ok] at h
  obtain ⟨_, _, ⟨rfl, rfl⟩, c, σ₁, hupd, -, rfl⟩ := h
  obtain ⟨-, t, ht, h₁⟩ := Model.updateMany_ok hupd
  obtain rfl : s' = { s with payments := t } := congrArg Prod.fst h₁
  exact ⟨rfl, rfl⟩

lemma settleVerified_idle {reference : String} {payment : PaymentTransaction} :
    Idle L (settleVerified reference payment) := by
  unfold settleVerified
  split
  · exact idle_raise
  refine idle_bind (idle_aside rfl fun w s a s' hm => ?_) fun rule => ?_
  · rw [(findUniqueOrThrow_ok hm).2]; exact ⟨rfl, rfl⟩
  refine idle_bind idle_ofExcept fun specs => ?_
  refine idle_bind (idle_statement rfl fun w s o s' hm => ?_) fun o => ?_
  · rcases settleTransaction_ok hm with rfl | ⟨row, hrow, hrowid, hopen, payments', accounts',
      payouts', payouts, entries, hupd, hpre, hrows, hafter, hwritten, howed, huntried⟩
    · exact .same rfl rfl
    · exact .added rfl payouts ((congrArg (fun d : Db => d.payouts.rows) hafter).trans hrows) huntried
  · rcases o with _ | ids
    · exact some_reload_idle
    · exact idle_bind (enqueuePayouts_idle ids) fun _ => some_reload_idle

theorem settle_idle {reference : String} : Idle L (settle reference) := by
  refine idle_bind (idle_query rfl) fun found => ?_
  rcases found with _ | payment
  · exact idle_ret
  simp only
  split
  · exact idle_ret
  refine idle_bind (idle_request (by simp)) fun verification => ?_
  cases verification.status with
  | failed | abandoned | pending => exact idle_bind transition_idle fun _ => some_reload_idle
  | success =>
    simp only
    split
    · exact idle_raise
    · exact settleVerified_idle

theorem retryPayout_idle {payoutId : Uuid} : Idle L (retryPayout payoutId) := by
  refine idle_bind (idle_statement rfl fun w s n s' hm => ?_) fun n => ?_
  · obtain ⟨m, h⟩ := Tx.run_ok.mp hm
    simp only [Tx.bind_ok, Tx.now_ok] at h
    obtain ⟨_, _, ⟨rfl, rfl⟩, h⟩ := h
    have hguard : ∀ p : Payout, (p.id == payoutId && p.status == .FAILED) = true →
        p.id = payoutId := fun p hp => by
      simp only [Bool.and_eq_true, beq_iff_eq] at hp
      exact hp.1
    exact acts_updateMany h hguard (fun _ => rfl) (.inr (.inl rfl))
  · split
    · refine idle_bind (idle_query rfl) fun found => ?_
      rcases found with _ | payout <;> exact idle_raise
    · refine idle_bind enqueue_idle fun _ => idle_aside rfl fun w s a s' hm => ?_
      rw [(findUniqueOrThrow_ok hm).2]; exact ⟨rfl, rfl⟩

theorem enqueueDuePayouts_idle : Idle L enqueueDuePayouts := by
  refine idle_bind (idle_aside rfl fun w s a s' hm => ?_) fun candidates => ?_
  · rw [(sweepCandidates_ok hm).1]
    exact ⟨rfl, rfl⟩
  · refine idle_bind (idle_query rfl) fun _ => idle_bind (idle_query rfl) fun _ => ?_
    exact idle_bind (enqueueAll_idle _) fun _ => idle_ret

theorem program_tracks (o : Operation) : Tracks L o.program .nothing := by
  cases o with
  | settle reference => exact (idle_bind settle_idle fun _ => idle_ret).tracks
  | processPayout payoutId => exact processPayout_tracks
  | handleTransferEvent reference outcome reason => exact handleTransferEvent_tracks
  | retryPayout payoutId => exact (idle_bind retryPayout_idle fun _ => idle_ret).tracks
  | enqueueDuePayouts => exact (idle_bind enqueueDuePayouts_idle fun _ => idle_ret).tracks

end Idle

end Splitcore.Money
