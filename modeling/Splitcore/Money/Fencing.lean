import Splitcore.Money.Attempted

/-!
Fencing: a run acting on an old attempt writes nothing once a newer one was claimed.
-/

namespace Splitcore.Money

open Relational Interleaving

/-! ### The fence -/

variable {g : Knows} {site : Site} {db db' : Db} {id : Uuid} {n : ℕ}

/-- A statement selects a payout whatever its attempt only while the attempt is the one its run
acts on. -/
def FencedAt (g : Knows) (site : Site) (db : Db) : Prop :=
  ∀ id, unfenced site = some id → ∀ row ∈ db.payouts.rows, row.id = id →
    g.attempt = some (id, row.attempts)

/-- **A run that acts on an attempt writes nothing to a payout that has a newer one.** -/
theorem Acts.fenced (h : Acts g site db db') (hagree : RefsAgree db)
    (hg : g.attempt = some (id, n)) (hrow : ∃ row ∈ db.payouts.rows, row.id = id ∧ n < row.attempts)
    (hfence : FencedAt g site db) : db'.payouts = db.payouts ∧ db'.postings = db.postings := by
  obtain ⟨row, hrow, hid, hlt⟩ := hrow
  -- whatever row another kind of statement found is this one, at its newer attempt
  have hthis : ∀ found ∈ db.payouts.rows, found.id = id → found = row :=
    fun found hfound hfid => payout_eq hfound hrow (hfid.trans hid.symm)
  cases h with
  | same hpayouts hpostings => exact ⟨hpayouts, hpostings⟩
  | added hnone => rw [hg] at hnone; cases hnone
  | claimed payout heq hsite guard update ht hguard hfound hupdate =>
    obtain ⟨found, hfound, hgfound⟩ := hfound
    obtain ⟨hfid, hattempts⟩ := hguard found hgfound
    rw [heq] at hg
    simp only [Knows.attempt, Option.some.injEq, Prod.mk.injEq] at hg
    obtain rfl := hthis found hfound (hfid.trans hg.1)
    omega
  | changed i guard update ht hguard hfound hkeeps hkind =>
    obtain ⟨found, hfound, hgfound⟩ := hfound
    have hfid := hguard found hgfound
    rcases hkind with hunfenced | hnone | ⟨m, hm, href⟩
    · have hnow := hfence i hunfenced found hfound hfid
      rw [hg] at hnow
      simp only [Option.some.injEq, Prod.mk.injEq] at hnow
      obtain rfl := hthis found hfound (hfid.trans hnow.1.symm)
      omega
    · rw [hg] at hnone; cases hnone
    · rw [hg] at hm
      simp only [Option.some.injEq, Prod.mk.injEq] at hm
      obtain ⟨rfl, rfl⟩ := hm
      obtain rfl := hthis found hfound hfid
      -- its reference is that of the newer attempt
      have hnew := (hagree found hfound).symm.trans (href found hgfound)
      rw [referenceAt, if_neg (by omega), Option.some.injEq, transferReference_inj] at hnew
      omega

/-- The statements of an event that select a payout whatever its attempt find it at the attempt
their run acts on. -/
def FencedWrites (p : Pool App Operation Unit) (ev : Event App Operation Db) : Prop :=
  ∀ i, executes ev = some i → ∀ r site eff k, p.live i = some r → r.prog = .stmt site eff k →
    FencedAt ((tracking Operation).at_ r) site p.store

/-- In every allowed run, an event of a run that acts on attempt `n` of a payout, last read or
claimed by it, changes no payout and posts nothing once the payout has a newer attempt. -/
def Fences (ok : Pool App Operation Unit → Event App Operation Db → Prop)
    (p₀ : Pool App Operation Unit) : Prop :=
  ∀ p ev p', Reach services ok p₀ p → ok p ev → step services p ev = some p' →
    ∀ i r, executes ev = some i → p.live i = some r →
    ∀ id n, ((tracking Operation).at_ r).attempt = some (id, n) →
    (∃ row ∈ p.store.payouts.rows, row.id = id ∧ n < row.attempts) →
    p'.store.payouts = p.store.payouts ∧ p'.store.postings = p.store.postings

/-- **Old attempts are fenced off**, as long as the writes without a fence find the attempt their
run acts on. -/
theorem attempts_fenced {p₀ : Pool App Operation Unit} (hruns : p₀.runs = [])
    (huntried : ∀ payout ∈ p₀.store.payouts.rows, Untried payout) : Fences FencedWrites p₀ := by
  have hstep : ∀ {p ev p'}, Tracked p → step services p ev = some p' →
      Tracked p' ∧ ActsAsKnown p p' ev := fun h hs => services_tracked h hs
  intro p ev p' hreach hok hs i r hev hr id n hg hrow
  have htracked : Tracked p := hreach.keeps (fun _ _ _ h _ hs => (hstep h hs).1) <|
    tracked_start hruns fun payout hp => by
      rw [(huntried payout hp).transferReference, (huntried payout hp).attempts]; rfl
  obtain ⟨r', site, eff, k, hr', hp, hacts⟩ := (hstep htracked hs).2.1 i hev
  obtain rfl : r = r' := Option.some.inj (hr.symm.trans hr')
  exact hacts.fenced htracked.refs hg hrow (hok i hev r site eff k hr hp)

theorem attempts_fenced_sample : Fences FencedWrites ⟨payoutDb, (), []⟩ :=
  attempts_fenced rfl payoutDb_untried

/-! ### A run: an old attempt's flag on a newer one -/

section Flagged

variable {V : Type}

/-- Run `i` claims the first attempt and sends it; the transfer is pending. -/
def firstPending (i : ℕ) : List (Event App Operation V) :=
  .start (.processPayout (uid 11)) :: execs i [1, 2, 3] ++ asks i agreeable ++ execs i [4] ++
    asks i (fun q => match q with | .initiateTransfer _ => .ok ⟨.pending, none⟩ | q => agreeable q)

/-- Run `i` finds the payout and verifies its last attempt. -/
def verifies (i : ℕ) (status : TransferVerification.Status) : List (Event App Operation V) :=
  .start (.processPayout (uid 11)) :: execs i [5] ++
    asks i (fun q => match q with | .verifyTransfer _ => .ok status | q => agreeable q)

end Flagged

/-- A payout that changed under a run that acts on an older attempt at it. -/
def overwritten (p p' : Pool App Operation Unit) (i : ℕ) : Bool :=
  (p.live i).any fun r => ((tracking Operation).at_ r).attempt.any fun (id, n) =>
    p.store.payouts.rows.any (fun row => row.id == id && n < row.attempts) &&
      decide (p'.store.payouts.rows ≠ p.store.payouts.rows)

/-- Run 1 is told that attempt 1 needs a person; run 2, that it failed, and claims attempt 2;
then run 1 writes its flag. -/
theorem old_attempt_overwrites : ¬ Fences anyEvent ⟨payoutDb, (), []⟩ := by
  intro h
  have hrun : ((run services ⟨payoutDb, (), []⟩ (firstPending 0 ++ verifies 1 .requires_action ++
      verifies 2 .failed ++ execs 2 [6, 7])).any fun p =>
        (step services p (.exec 1 (inputAt 8))).any fun p' => overwritten p p' 1) = true := by
    decide +kernel
  obtain ⟨p, hp, hany⟩ := (Option.any_eq_true _ _).mp hrun
  obtain ⟨p', hp', hover⟩ := (Option.any_eq_true _ _).mp hany
  obtain ⟨r, hr, hover⟩ := (Option.any_eq_true _ _).mp hover
  obtain ⟨⟨id, n⟩, hg, hover⟩ := (Option.any_eq_true _ _).mp hover
  simp only [Bool.and_eq_true, List.any_eq_true, beq_iff_eq, decide_eq_true_eq] at hover
  obtain ⟨hrow, hne⟩ := hover
  have hsame := h p _ p' (reach_of_run (along_any _) hp) trivial hp' 1 r rfl hr id n hg hrow
  exact hne (by rw [hsame.1])

end Splitcore.Money
