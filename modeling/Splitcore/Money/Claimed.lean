import Splitcore.Interleaving.History
import Splitcore.Money.Fencing

/-!
References: each is stored by the claim of one attempt, sent at most once and only by the run that
claimed it, and followed by the next once the provider said that it moved no money.
-/

namespace Splitcore.Money

open Relational Interleaving

/-! ### Claims and transfers -/

/-- The payout as a claim stored it: the statement took it to another attempt. -/
def claimOf : Did App → Option Payout
  | .stmt (.processPayoutClaim payoutId) _ s s' =>
    if currentOf s' payoutId = currentOf s payoutId then none else s'.payouts.find (·.id == payoutId)
  | _ => none

def transferOf : Did App → Option TransferParams
  | .asked (.initiateTransfer params) => some params
  | _ => none

/-- The attempts claimed of a payout, oldest first. -/
def claimedOf (payoutId : Uuid) (h : List (ℕ × Did App)) : List ℕ :=
  ((h.filterMap (claimOf ·.2)).filter (·.id = payoutId)).map (·.attempts)

/-- The references sent, oldest first. -/
def sentIn (h : List (ℕ × Did App)) : List String := (h.filterMap (transferOf ·.2)).map (·.reference)

/-- A transfer is of what its run claimed before: under the reference that the claim stored, for the
amount of the payout. -/
def Persisted (before : List (ℕ × Did App)) (x : ℕ × Did App) : Prop :=
  ∀ params, transferOf x.2 = some params → ∃ d payout, (x.1, d) ∈ before ∧ claimOf d = some payout ∧
    payout.id = params.payoutId ∧ payout.transferReference = some params.reference ∧
    payout.amountKobo = params.amountKobo

/-- A claim stores the reference of its attempt; and its run was told before that the attempt before it
moved no money. -/
def Verified (before : List (ℕ × Did App)) (x : ℕ × Did App) : Prop :=
  ∀ payout, claimOf x.2 = some payout →
    payout.transferReference = some (transferReference payout.id payout.attempts) ∧
    ∀ n, 1 ≤ n → payout.attempts = n + 1 → ∃ status, Knows.movedNoMoney status = true ∧
      (x.1, .answered (.verifyTransfer (transferReference payout.id n)) (.ok status)) ∈ before

/-- What is so of the references after a history that began on `s₀`. -/
structure InTurn (s₀ s : Db) (h : List (ℕ × Did App)) : Prop where
  persisted : Throughout Persisted h
  verified : Throughout Verified h
  unique : (sentIn h).Nodup
  numbered : ∀ id, claimedOf id h = List.range' (currentOf s₀ id + 1) (currentOf s id - currentOf s₀ id)

/-! ### What a run knows, it has in its log -/

section Grounds

variable {g : Knows} {site : Site} {db db' : Db} {w : Input} {log : List (Did App)} {payout : Payout}

def Knows.Grounded (log : List (Did App)) : Knows → Prop
  | cleared p => ∀ reference, p.transferReference = some reference →
      ∃ status, movedNoMoney status = true ∧ .answered (.verifyTransfer reference) (.ok status) ∈ log
  | holding p => ∃ d ∈ log, ∃ row, claimOf d = some row ∧ row.id = p.id ∧ row.amountKobo = p.amountKobo ∧
      row.transferReference = some (transferReference p.id (p.attempts + 1))
  | _ => True

lemma Knows.Grounded.mono {log' : List (Did App)} (h : g.Grounded log) (hlog : log <+: log') :
    g.Grounded log' := by
  cases g with
  | cleared p =>
    intro reference href
    obtain ⟨status, hmoved, hmem⟩ := h reference href
    exact ⟨status, hmoved, hlog.subset hmem⟩
  | holding p =>
    obtain ⟨d, hd, hrow⟩ := h
    exact ⟨d, hlog.subset hd, hrow⟩
  | _ => trivial

lemma grounded_throws (h : g.Grounded log) : g.throws.Grounded log := by
  cases g with
  | holding p => trivial
  | _ => exact h

lemma currentOf_mono (h : Grows db db') (id : Uuid) : currentOf db id ≤ currentOf db' id := by
  by_cases hex : ∃ p ∈ db.payouts.rows, p.id = id
  · obtain ⟨p, hp, rfl⟩ := hex
    obtain ⟨q, hq, hid, -, hle⟩ := h p hp
    rw [currentOf_mem hp, ← hid, currentOf_mem hq]
    exact hle
  · push Not at hex
    rw [currentOf_none hex]
    exact Nat.zero_le _

/-- **What a claim stores**: the row the run read, with the next attempt and its reference. -/
lemma Acts.claimOf_eq (h : Acts g site db db') (hrefs : RefsAgree db) :
    claimOf (.stmt site w db db') = none ∧ (∀ id, currentOf db' id = currentOf db id) ∨
      ∃ payout row, g = .cleared payout ∧ claimOf (.stmt site w db db') = some row ∧
        row ∈ db'.payouts.rows ∧ row.id = payout.id ∧ row.attempts = payout.attempts + 1 ∧
        row.transferReference = some (transferReference payout.id (payout.attempts + 1)) ∧
        currentOf db payout.id = payout.attempts ∧ currentOf db' payout.id = payout.attempts + 1 ∧
        ∀ id, id ≠ payout.id → currentOf db' id = currentOf db id := by
  rcases h.current with hsame | ⟨payout, hg, rfl, hcur, hcur', hother⟩
  · refine .inl ⟨?_, hsame⟩
    unfold claimOf
    split
    · rename_i heq
      cases heq
      rw [if_pos (hsame _)]
    · rfl
  · right
    have hex : ∃ row ∈ db'.payouts.rows, row.id = payout.id := by
      by_contra hnone
      push Not at hnone
      rw [currentOf_none hnone] at hcur'
      omega
    obtain ⟨row, hrow, hid⟩ := hex
    have hattempts : row.attempts = payout.attempts + 1 := by
      rw [← hcur', ← hid, currentOf_mem hrow]
    refine ⟨payout, row, hg, ?_, hrow, hid, hattempts, ?_, hcur, hcur', hother⟩
    · rw [claimOf, if_neg (by omega)]
      exact (Table.find_eq_some names_payout).mpr ⟨hrow, by simpa using hid⟩
    · rw [(h.refsAgree hrefs) row hrow, hid, hattempts, referenceAt, if_neg (by omega)]

lemma grounded_stmt (hacts : Acts g site db db') (hrefs : RefsAgree db) (hfits : g.Fits db)
    (h : g.Grounded log) : (g.next (.stmt site w db db')).Grounded (log ++ [.stmt site w db db']) := by
  rcases hnext : g.next (.stmt site w db db') with _ | _ | p | p | _
  case cleared =>
    rcases next_cleared hnext with hg | ⟨-, -, hnone⟩
    · rw [hg] at h
      exact h.mono (List.prefix_append _ _)
    · intro reference href
      rw [hnone] at href
      cases href
  case holding =>
    rcases next_holding hnext with hg | ⟨hg, hraises⟩
    · rw [hg] at h
      exact h.mono (List.prefix_append _ _)
    have hcurrent := current_of_raises hraises
    rcases hacts.claimOf_eq (w := w) hrefs with ⟨-, hsame⟩ |
      ⟨payout, row, hg', hclaim, hrow, hid, hattempts, href, -, -, -⟩
    · have := hsame p.id
      omega
    obtain rfl : p = payout := by
      rw [hg] at hg'
      exact Knows.cleared.inj hg'
    rw [hg] at hfits
    obtain ⟨row', hrow', hid', hamount, -⟩ := hfits.2.grows hacts.grows
    obtain rfl := payout_eq hrow hrow' (hid.trans hid'.symm)
    exact ⟨_, List.mem_append_right _ (List.mem_singleton.mpr rfl), row, hclaim, hid, hamount, href⟩
  all_goals trivial

lemma grounded_asked {q : Ask} (h : g.Grounded log) : (g.next (.asked q)).Grounded (log ++ [.asked q]) := by
  cases q with
  | initiateTransfer params =>
    cases g with
    | holding p => trivial
    | _ => exact h.mono (List.prefix_append _ _)
  | _ => exact h.mono (List.prefix_append _ _)

lemma grounded_answered {q : Ask} {a : Except Err (Ans q)} (h : g.Grounded log) :
    (g.next (.answered q a)).Grounded (log ++ [.answered q a]) := by
  have hmono := h.mono (List.prefix_append log [.answered q a])
  rcases a with e | a
  · cases q <;> exact grounded_throws hmono
  cases q with
  | verifyTransfer reference =>
    cases g with
    | read p =>
      simp only [Knows.next, Knows.verified]
      split
      · rename_i hverified
        intro reference' href
        obtain rfl : reference = reference' := Option.some.inj (hverified.1.symm.trans href)
        exact ⟨a, hverified.2, List.mem_append_right _ (List.mem_singleton.mpr rfl)⟩
      · trivial
    | _ => exact hmono
  | _ => exact hmono

lemma fits_asked {q : Ask} (h : g.Fits db) : (g.next (.asked q)).Fits db := by
  cases q with
  | initiateTransfer params => cases g <;> exact h
  | _ => exact h

lemma fits_answered {q : Ask} {a : Except Err (Ans q)} (h : g.Fits db) :
    (g.next (.answered q a)).Fits db := by
  rcases a with e | a
  · cases q <;> exact throws_fits h
  cases q with
  | verifyTransfer reference =>
    cases g with
    | read p =>
      simp only [Knows.next, Knows.verified]
      split <;> exact h
    | _ => exact h
  | _ => exact h

lemma HasRow.le_current {id : Uuid} {amountKobo : ℤ} {n : ℕ} (h : HasRow db id amountKobo n) :
    n ≤ currentOf db id := by
  obtain ⟨p, hp, rfl, -, hn⟩ := h
  rw [currentOf_mem hp]
  exact hn

lemma answered_holding {q : Ask} {a : Except Err (Ans q)} (h : g.next (.answered q a) = .holding payout) :
    g = .holding payout := by
  rcases a with e | a
  · cases q <;> exact absurd h throws_holding
  cases q with
  | verifyTransfer reference =>
    cases g with
    | read p =>
      simp only [Knows.next, Knows.verified] at h
      split at h <;> cases h
    | _ => exact h
  | _ => exact h

lemma asked_holding {q : Ask} (h : g.next (.asked q) = .holding payout) : g = .holding payout := by
  cases q with
  | initiateTransfer params => cases g <;> first | exact h | cases h
  | _ => exact h

end Grounds

/-! ### Histories of the services -/

section Histories

variable {s₀ s s' : Db} {h : List (ℕ × Did App)} {x : ℕ × Did App} {p p' : Pool App Operation Unit} {i j : ℕ}
  {r r' : Run App Operation} {q : Payout}

/-- The run claimed the next attempt of the payout it read, and has not sent it. -/
def Holds (p : Pool App Operation Unit) (i : ℕ) (q : Payout) : Prop :=
  ∃ r, p.live i = some r ∧ (tracking Operation).at_ r = .holding q

/-- What the runs know is so, they have it in their logs, and what they are about to send was not sent and
is nobody else's. -/
structure Claiming (s₀ : Db) (h : List (ℕ × Did App)) (p : Pool App Operation Unit) : Prop extends
    Tracked p, InTurn s₀ p.store h where
  fits : ∀ i r, p.live i = some r → ((tracking Operation).at_ r).Fits p.store
  grounded : ∀ i r, p.live i = some r → ((tracking Operation).at_ r).Grounded r.log
  started : ∀ id, currentOf s₀ id ≤ currentOf p.store id
  below : ∀ reference ∈ sentIn h, ∃ id n, reference = transferReference id n ∧ n ≤ currentOf p.store id
  unsent : ∀ i q, Holds p i q → transferReference q.id (q.attempts + 1) ∉ sentIn h
  apart : ∀ i j q q', Holds p i q → Holds p j q' → q.id = q'.id → q.attempts = q'.attempts → i = j

lemma live_of_runs (hruns : p'.runs = (p.put i r').runs) : p'.live j = (p.put i r').live j := by
  rw [Pool.live, hruns, Pool.live]

lemma live_goes (hr : p.live i = some r) (hruns : p'.runs = (p.put i r').runs) {rj : Run App Operation}
    (hj : p'.live j = some rj) : p.live j = some rj ∧ j ≠ i ∨ j = i ∧ rj = r' ∧ r'.alive = true := by
  rw [live_of_runs hruns, live_put hr] at hj
  by_cases hij : j = i
  · rw [if_pos hij, Option.filter_eq_some_iff, Option.some.injEq] at hj
    exact .inr ⟨hij, hj.1.symm, hj.1 ▸ hj.2⟩
  · rw [if_neg hij] at hj
    exact .inl ⟨hj, hij⟩

lemma sentIn_quiet (hx : transferOf x.2 = none) : sentIn (h ++ [x]) = sentIn h := by
  simp [sentIn, hx]

lemma claimedOf_quiet {id : Uuid} (hx : claimOf x.2 = none) : claimedOf id (h ++ [x]) = claimedOf id h := by
  simp [claimedOf, hx]

/-- Neither a claim nor a transfer. -/
lemma InTurn.quiet (ht : InTurn s₀ s h) (hclaim : claimOf x.2 = none) (htransfer : transferOf x.2 = none)
    (hsame : ∀ id, currentOf s' id = currentOf s id) : InTurn s₀ s' (h ++ [x]) where
  persisted := throughout_snoc ht.persisted fun params hparams => by
    rw [htransfer] at hparams
    cases hparams
  verified := throughout_snoc ht.verified fun payout hpayout => by
    rw [hclaim] at hpayout
    cases hpayout
  unique := by rw [sentIn_quiet htransfer]; exact ht.unique
  numbered id := by rw [claimedOf_quiet hclaim, hsame, ht.numbered]

/-- A run goes on, knowing what it has reason to know. -/
lemma Claiming.goes {h' : List (ℕ × Did App)} (hc : Claiming s₀ h p) (ht : Tracked p')
    (hr : p.live i = some r) (hruns : p'.runs = (p.put i r').runs) (hgrows : Grows p.store p'.store)
    (hinturn : InTurn s₀ p'.store h')
    (hknows : r'.alive = true → ((tracking Operation).at_ r').Fits p'.store ∧
      ((tracking Operation).at_ r').Grounded r'.log)
    (hbelow : ∀ reference ∈ sentIn h', ∃ id n, reference = transferReference id n ∧ n ≤ currentOf p'.store id)
    (hunsent : ∀ j q, Holds p j q → j ≠ i → transferReference q.id (q.attempts + 1) ∉ sentIn h')
    (hholds : ∀ q, r'.alive = true → (tracking Operation).at_ r' = .holding q →
      transferReference q.id (q.attempts + 1) ∉ sentIn h' ∧
      ∀ j q', Holds p j q' → q.id = q'.id → q.attempts = q'.attempts → j = i) : Claiming s₀ h' p' := by
  have hholds' : ∀ {j q}, Holds p' j q → Holds p j q ∧ j ≠ i ∨
      j = i ∧ r'.alive = true ∧ (tracking Operation).at_ r' = .holding q := by
    rintro j q ⟨rj, hj, hq⟩
    rcases live_goes hr hruns hj with ⟨hold, hne⟩ | ⟨hij, rfl, halive⟩
    · exact .inl ⟨⟨rj, hold, hq⟩, hne⟩
    · exact .inr ⟨hij, halive, hq⟩
  refine ⟨ht, hinturn, fun j rj hj => ?_, fun j rj hj => ?_, fun id => ?_, hbelow, fun j q hq => ?_,
    fun j k q q' hq hq' hid hattempts => ?_⟩
  · rcases live_goes hr hruns hj with ⟨hold, -⟩ | ⟨-, rfl, halive⟩
    · exact (hc.fits j rj hold).grows hgrows
    · exact (hknows halive).1
  · rcases live_goes hr hruns hj with ⟨hold, -⟩ | ⟨-, rfl, halive⟩
    · exact hc.grounded j rj hold
    · exact (hknows halive).2
  · exact (hc.started id).trans (currentOf_mono hgrows id)
  · rcases hholds' hq with ⟨hold, hne⟩ | ⟨-, halive, hq⟩
    · exact hunsent j q hold hne
    · exact (hholds q halive hq).1
  · rcases hholds' hq with ⟨hold, hne⟩ | ⟨rfl, halive, hq⟩ <;> rcases hholds' hq' with
      ⟨hold', hne'⟩ | ⟨rfl, halive', hq'⟩
    · exact hc.apart j k q q' hold hold' hid hattempts
    · exact (hholds q' halive' hq').2 j q hold hid.symm hattempts.symm
    · exact ((hholds q halive hq).2 k q' hold' hid hattempts).symm
    · rfl

/-- A run goes on without a claim or a transfer, and holds what it held. -/
lemma Claiming.goes_quietly {d : Did App} (hc : Claiming s₀ h p) (ht : Tracked p') (hr : p.live i = some r)
    (hruns : p'.runs = (p.put i r').runs) (hstore : p'.store = p.store) (hgoes : Continues r r' [d])
    (hclaim : claimOf d = none) (htransfer : transferOf d = none)
    (hfits : (((tracking Operation).at_ r).next d).Fits p.store)
    (hgrounded : (((tracking Operation).at_ r).next d).Grounded (r.log ++ [d]))
    (hheld : ∀ q, ((tracking Operation).at_ r).next d = .holding q → (tracking Operation).at_ r = .holding q) :
    Claiming s₀ (h ++ [(i, d)]) p' := by
  have hat : (tracking Operation).at_ r' = ((tracking Operation).at_ r).next d := Monitor.at_continues hgoes
  have hsent : sentIn (h ++ [(i, d)]) = sentIn h := sentIn_quiet htransfer
  refine hc.goes ht hr hruns (grows_of_eq (by rw [hstore])) (hc.toInTurn.quiet hclaim htransfer fun id => by rw [hstore])
    (fun _ => ?_) ?_ (fun j q hq _ => ?_) fun q _ hq => ?_
  · rw [hat, hgoes.log, hstore]
    exact ⟨hfits, hgrounded⟩
  · rw [hsent, hstore]
    exact hc.below
  · rw [hsent]
    exact hc.unsent j q hq
  · have hold : Holds p i q := ⟨r, hr, hheld q (hat ▸ hq)⟩
    rw [hsent]
    exact ⟨hc.unsent i q hold, fun j q' hq' hid hattempts => hc.apart j i q' q hq' hold hid.symm hattempts.symm⟩

/-- **A statement of a run**: a claim takes its payout to the next attempt. -/
lemma InTurn.stmt {g : Knows} {site : Site} {w : Input} {log : List (Did App)} (ht : InTurn s₀ s h)
    (hacts : Acts g site s s') (hrefs : RefsAgree s) (hfits : g.Fits s) (hgrounded : g.Grounded log)
    (hlog : ∀ d ∈ log, (i, d) ∈ h) (hstarted : ∀ id, currentOf s₀ id ≤ currentOf s id) :
    InTurn s₀ s' (h ++ [(i, .stmt site w s s')]) := by
  have htransfer : transferOf (.stmt site w s s') = none := rfl
  rcases hacts.claimOf_eq (w := w) hrefs with ⟨hclaim, hsame⟩ |
    ⟨payout, row, hg, hclaim, hrow, hid, hattempts, href, hcur, hcur', hother⟩
  · exact ht.quiet hclaim htransfer hsame
  subst hg
  refine ⟨throughout_snoc ht.persisted fun params hparams => (by cases hparams),
    throughout_snoc ht.verified fun payout' hpayout' => ?_, by rw [sentIn_quiet htransfer]; exact ht.unique,
    fun id => ?_⟩
  · obtain rfl : row = payout' := Option.some.inj (hclaim.symm.trans hpayout')
    refine ⟨by rw [href, hid, hattempts], fun n hn heq => ?_⟩
    obtain rfl : n = payout.attempts := by omega
    -- the attempt before had a reference, and the run verified it
    obtain ⟨status, hmoved, hmem⟩ := hgrounded (transferReference payout.id payout.attempts) (by
      rw [hfits.1, referenceAt, if_neg (by omega)])
    exact ⟨status, hmoved, hlog _ (by rw [hid]; exact hmem)⟩
  · have hsnoc : claimedOf id (h ++ [(i, .stmt site w s s')]) =
        claimedOf id h ++ if row.id = id then [row.attempts] else [] := by
      by_cases hrowid : row.id = id <;> simp [claimedOf, hclaim, hrowid]
    rw [hsnoc, ht.numbered, hid]
    by_cases hpid : payout.id = id
    · subst hpid
      have hstart := hstarted payout.id
      rw [if_pos rfl, hattempts, hcur', hcur]
      rw [hcur] at hstart
      rw [show payout.attempts + 1 - currentOf s₀ payout.id = payout.attempts - currentOf s₀ payout.id + 1 by omega,
        List.range'_concat]
      congr 2
      omega
    · rw [if_neg hpid, List.append_nil, hother id (Ne.symm hpid)]

lemma Claiming.stmt {site : Site} {w : Input} {ds : List (Did App)} (hc : Claiming s₀ h p) (ht : Tracked p')
    (hlogs : Logs h p) (hr : p.live i = some r) (hruns : p'.runs = (p.put i r').runs)
    (hacts : Acts ((tracking Operation).at_ r) site p.store p'.store)
    (hgoes : Continues r r' (.stmt site w p.store p'.store :: ds))
    (hds : ds = [] ∨ ∃ e, ds = [.failed site e]) :
    Claiming s₀ (h ++ (Did.stmt site w p.store p'.store :: ds).map (i, ·)) p' := by
  have hfits := hc.fits i r hr
  have hgrounded := hc.grounded i r hr
  have hturn : InTurn s₀ p'.store (h ++ [(i, .stmt site w p.store p'.store)]) :=
    hc.toInTurn.stmt hacts hc.refs hfits hgrounded
      (fun d hd => hlogs.mem.mp (by rw [logAt_live hr]; exact hd)) hc.started
  have hfits' := next_fits (w := w) hacts hc.refs hfits
  have hgrounded' := grounded_stmt (w := w) hacts hc.refs hfits hgrounded
  have hsent : sentIn (h ++ (Did.stmt site w p.store p'.store :: ds).map (i, ·)) = sentIn h := by
    rcases hds with rfl | ⟨e, rfl⟩ <;> simp [sentIn, transferOf]
  have hat := Monitor.at_continues (M := tracking Operation) hgoes
  have hlog := hgoes.log
  refine hc.goes ht hr hruns hacts.grows ?_ (fun _ => ?_) ?_ (fun j q hq _ => ?_) fun q _ hq => ?_
  · rcases hds with rfl | ⟨e, rfl⟩
    · exact hturn
    · have hboth := hturn.quiet (x := (i, .failed site e)) rfl rfl fun _ => rfl
      rwa [List.append_assoc] at hboth
  · rcases hds with rfl | ⟨e, rfl⟩ <;> rw [hat, hlog]
    · exact ⟨hfits', hgrounded'⟩
    · refine ⟨throws_fits hfits', (grounded_throws hgrounded').mono ?_⟩
      exact ⟨[.failed site e], by simp⟩
  · intro reference href
    rw [hsent] at href
    obtain ⟨id, n, heq, hle⟩ := hc.below reference href
    exact ⟨id, n, heq, hle.trans (currentOf_mono hacts.grows id)⟩
  · rw [hsent]
    exact hc.unsent j q hq
  · have hnext : ((tracking Operation).at_ r).next (.stmt site w p.store p'.store) = .holding q := by
      rcases hds with rfl | ⟨e, rfl⟩
      · exact hat.symm.trans hq
      · exact absurd (hat.symm.trans hq) throws_holding
    rw [hsent]
    rcases next_holding hnext with hheld | ⟨-, hraises⟩
    · have hold : Holds p i q := ⟨r, hr, hheld⟩
      exact ⟨hc.unsent i q hold, fun j q' hq' hid hattempts => hc.apart j i q' q hq' hold hid.symm hattempts.symm⟩
    · -- it was the last attempt until now
      obtain ⟨hcur, -⟩ := current_of_raises hraises
      refine ⟨fun hmem => ?_, fun j q' hq' hid hattempts => ?_⟩
      · obtain ⟨id, n, heq, hle⟩ := hc.below _ hmem
        obtain ⟨rfl, rfl⟩ := transferReference_inj.mp heq
        omega
      · obtain ⟨rj, hj, hat'⟩ := hq'
        have hfits'' := hc.fits j rj hj
        rw [hat'] at hfits''
        have hle := HasRow.le_current hfits''
        rw [← hid, hcur] at hle
        omega

/-- **A transfer is sent** by the run that claimed its attempt, which does not hold it any more. -/
lemma Claiming.sends {params : TransferParams} (hc : Claiming s₀ h p) (ht : Tracked p') (hlogs : Logs h p)
    (hr : p.live i = some r) (hruns : p'.runs = (p.put i r').runs) (hstore : p'.store = p.store)
    (hgoes : Continues r r' [.asked (.initiateTransfer params)])
    (hquery : (tracking Operation).query ((tracking Operation).at_ r) (.initiateTransfer params)) :
    Claiming s₀ (h ++ [(i, .asked (.initiateTransfer params))]) p' := by
  obtain ⟨q, hheld, hpayout, hamount, href⟩ := hquery
  have hat : (tracking Operation).at_ r' = .sent q := by
    rw [Monitor.at_continues hgoes, hheld]
    rfl
  have hold : Holds p i q := ⟨r, hr, hheld⟩
  have hfits := hc.fits i r hr
  have hgrounded := hc.grounded i r hr
  rw [hheld] at hfits hgrounded
  have hsent : sentIn (h ++ [(i, .asked (.initiateTransfer params))]) = sentIn h ++ [params.reference] := by
    simp [sentIn, transferOf]
  have hfresh : params.reference ∉ sentIn h := by rw [href]; exact hc.unsent i q hold
  refine hc.goes ht hr hruns (grows_of_eq (by rw [hstore])) ?_ (fun _ => ?_) ?_ (fun j q' hq' hne => ?_)
    fun q' _ hq' => ?_
  · refine ⟨throughout_snoc hc.persisted fun params' hparams' => ?_,
      throughout_snoc hc.verified fun payout hpayout => ?_, ?_,
      fun id => ?_⟩
    · obtain rfl : params = params' := Option.some.inj hparams'
      obtain ⟨d, hd, row, hclaim, hid, hrowamount, hrowref⟩ := hgrounded
      refine ⟨d, row, hlogs.mem.mp (by rw [logAt_live hr]; exact hd), hclaim, hid.trans hpayout.symm, ?_,
        hrowamount.trans hamount.symm⟩
      rw [hrowref, href]
    · cases hpayout
    · rw [hsent]
      exact hc.unique.append (List.nodup_singleton _) (List.disjoint_singleton.mpr hfresh)
    · rw [claimedOf_quiet rfl, hstore, hc.numbered]
  · rw [hat, hstore]
    exact ⟨hfits, trivial⟩
  · intro reference hmem
    rw [hsent, List.mem_append, List.mem_singleton] at hmem
    rw [hstore]
    rcases hmem with hmem | rfl
    · exact hc.below reference hmem
    · exact ⟨q.id, q.attempts + 1, href, HasRow.le_current hfits⟩
  · rw [hsent, List.mem_append, List.mem_singleton]
    rintro (hmem | heq)
    · exact hc.unsent j q' hq' hmem
    · obtain ⟨hid, hattempts⟩ := transferReference_inj.mp (heq.trans href)
      exact hne (hc.apart j i q' q hq' hold hid (by omega))
  · rw [hat] at hq'
    cases hq'

/-- A run that was started, or a move of the outside. -/
lemma Claiming.same (hc : Claiming s₀ h p) (ht : Tracked p') (hpayouts : p'.store.payouts = p.store.payouts)
    (hlive : ∀ j rj, p'.live j = some rj → p.live j = some rj ∨
      (tracking Operation).at_ rj = .nothing) : Claiming s₀ h p' := by
  have hgrows := grows_of_eq hpayouts
  have hcurrent : ∀ id, currentOf p'.store id = currentOf p.store id := fun id => by rw [currentOf, hpayouts]; rfl
  have hholds : ∀ {j q}, Holds p' j q → Holds p j q := by
    rintro j q ⟨rj, hj, hq⟩
    rcases hlive j rj hj with hold | hnothing
    · exact ⟨rj, hold, hq⟩
    · rw [hnothing] at hq
      cases hq
  refine ⟨ht, ⟨hc.persisted, hc.verified, hc.unique, fun id => by rw [hcurrent, hc.numbered]⟩, fun j rj hj => ?_,
    fun j rj hj => ?_, fun id => by rw [hcurrent]; exact hc.started id, fun reference hmem => ?_,
    fun j q hq => hc.unsent j q (hholds hq), fun j k q q' hq hq' => hc.apart j k q q' (hholds hq) (hholds hq')⟩
  · rcases hlive j rj hj with hold | hnothing
    · exact (hc.fits j rj hold).grows hgrows
    · rw [hnothing]; trivial
  · rcases hlive j rj hj with hold | hnothing
    · exact hc.grounded j rj hold
    · rw [hnothing]; trivial
  · obtain ⟨id, n, heq, hle⟩ := hc.below reference hmem
    exact ⟨id, n, heq, by rw [hcurrent]; exact hle⟩

theorem claiming_step {ev : Event App Operation Db} (hlogs : Logs h p) (hc : Claiming s₀ h p)
    (hs : step services p ev = some p') : Claiming s₀ (h ++ news p p' ev) p' := by
  obtain ⟨ht, hacted⟩ := services_tracked hc.toTracked hs
  rcases news_of_step hs with ⟨hnews, hev, -, hlive⟩ | ⟨i, r, r', ds, hr, hruns, hgoes, hadds, hnews, -⟩
  · rw [hnews, List.append_nil]
    refine hc.same ht (hacted.2 hev) fun j rj hj => (hlive j rj hj).imp_right ?_
    rintro ⟨l, rfl⟩
    exact Monitor.at_new _ _ _
  rw [hnews]
  cases hadds with
  | stmt nm w hev hex =>
    obtain ⟨r₀, site, eff, k, hr₀, hp, hacts⟩ := hacted.1 i hev
    obtain ⟨eff', k', hp', -⟩ := hex
    obtain rfl : r = r₀ := Option.some.inj (hr.symm.trans hr₀)
    obtain ⟨rfl, -, -⟩ := Prog.stmt.inj (hp'.symm.trans hp)
    exact hc.stmt ht hlogs hr hruns hacts hgoes (.inl rfl)
  | lost nm w e hev hex =>
    obtain ⟨r₀, site, eff, k, hr₀, hp, hacts⟩ := hacted.1 i hev
    obtain ⟨eff', k', hp', -⟩ := hex
    obtain rfl : r = r₀ := Option.some.inj (hr.symm.trans hr₀)
    obtain ⟨rfl, -, -⟩ := Prog.stmt.inj (hp'.symm.trans hp)
    exact hc.stmt ht hlogs hr hruns hacts hgoes (.inr ⟨e, rfl⟩)
  | failed hstore nm e =>
    exact hc.goes_quietly ht hr hruns hstore hgoes rfl rfl (throws_fits (hc.fits i r hr))
      ((grounded_throws (hc.grounded i r hr)).mono (List.prefix_append _ _)) (fun q hq => absurd hq throws_holding)
  | asked hstore q k hp ha =>
    cases q with
    | initiateTransfer params => exact hc.sends ht hlogs hr hruns hstore hgoes (hc.watched.query hr hp ha)
    | _ =>
      exact hc.goes_quietly ht hr hruns hstore hgoes rfl rfl (fits_asked (hc.fits i r hr))
        (grounded_asked (hc.grounded i r hr)) (fun _ hq => asked_holding hq)
  | answered hstore q k hp a =>
    exact hc.goes_quietly ht hr hruns hstore hgoes rfl rfl (fits_answered (hc.fits i r hr))
      (grounded_answered (hc.grounded i r hr)) (fun _ hq => answered_holding hq)
  | nothing hstore =>
    rw [List.map_nil, List.append_nil]
    refine hc.same ht (by rw [hstore]) fun j rj hj => ?_
    rcases live_goes hr hruns hj with ⟨hold, -⟩ | ⟨-, -, halive⟩
    · exact .inl hold
    · rw [hgoes.gone rfl] at halive
      cases halive

/-- Nothing has happened yet. -/
lemma claiming_start (hruns : p.runs = []) (hrefs : RefsAgree p.store) : Claiming p.store [] p := by
  have hnobody : ∀ {i : ℕ} {r}, p.live i ≠ some r := fun {i r} h => by simp [live_eq_some, hruns] at h
  exact {
    toTracked := tracked_start hruns hrefs
    toInTurn := ⟨throughout_nil, throughout_nil, List.nodup_nil, fun id => by simp [claimedOf]⟩
    fits := fun i r hr => absurd hr hnobody
    grounded := fun i r hr => absurd hr hnobody
    started := fun id => le_rfl
    below := fun reference h => by simp [sentIn] at h
    unsent := fun i q ⟨r, hr, _⟩ => absurd hr hnobody
    apart := fun i j q q' ⟨r, hr, _⟩ => absurd hr hnobody }

end Histories

/-! ### References -/

/-- **References are stored first, unique, and verified before the next.** Whatever the services do side by
side on payouts that carry the reference of their last attempt, in the history of what they did: a run sends
a transfer only under the reference that a claim of its own stored before, for the amount of the payout;
no two transfers have the same reference; the attempts of a payout are claimed one after another, counted
from those it had; and the run that claims an attempt after the first was told before that the attempt
before it failed, was reversed or is not known. -/
theorem references_in_turn {p₀ p : Pool App Operation Unit} {evs : List (Event App Operation Db)}
    (hruns : p₀.runs = []) (hrefs : RefsAgree p₀.store) (hrun : run services p₀ evs = some p) :
    InTurn p₀.store p.store (history services p₀ evs) := by
  exact (run_history (P := fun h p => Claiming p₀.store h p) hruns (claiming_start hruns hrefs)
    (fun h p ev p' hlogs hc hs => claiming_step hlogs hc hs) hrun).toInTurn

/-- A first attempt is pending; a second run finds that it failed, and sends the next. -/
def twoAttempts : List (Event App Operation Db) :=
  firstPending 0 ++ verifies 1 .failed ++ execs 1 [6, 7] ++ asks 1 agreeable ++ execs 1 [8] ++ [.send 1]

theorem references_in_turn_sample : ∃ p, run services ⟨payoutDb, (), []⟩ twoAttempts = some p ∧
    claimedOf (uid 11) (history services ⟨payoutDb, (), []⟩ twoAttempts) = [1, 2] ∧
    sentIn (history services ⟨payoutDb, (), []⟩ twoAttempts) =
      [transferReference (uid 11) 1, transferReference (uid 11) 2] ∧
    InTurn payoutDb p.store (history services ⟨payoutDb, (), []⟩ twoAttempts) := by
  obtain ⟨p, hp⟩ := Option.isSome_iff_exists.mp
    (by decide +kernel : (run services ⟨payoutDb, (), []⟩ twoAttempts).isSome = true)
  refine ⟨p, hp, by decide +kernel, by decide +kernel, references_in_turn rfl (fun payout hpayout => ?_) hp⟩
  rw [(payoutDb_untried payout hpayout).transferReference, (payoutDb_untried payout hpayout).attempts]
  rfl

end Splitcore.Money
