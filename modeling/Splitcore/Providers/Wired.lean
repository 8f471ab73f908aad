import Splitcore.Providers.PaystackPayout

/-!
The payout services over HTTP: whatever is fetched, money is sent again only where Paystack said that it had not
gone.
-/

namespace Splitcore.Providers

open Relational Interleaving Money

section Wires

variable {L X V : Type}

/-- What is answered about transfers is made of a response. -/
def Wired (_ : Pool App L X) (ev : Event App L V) : Prop :=
  ∀ i o, ev = .answer i o → (∀ reference, ∃ fetched, o (.verifyTransfer reference) = verifyTransfer fetched) ∧
    ∀ params, ∃ fetched, o (.initiateTransfer params) = initiateTransfer fetched

/-- What the log says of an answer. -/
def OfResponse : Did App → Prop
  | .answered (.verifyTransfer _) a => ∃ fetched, a = verifyTransfer fetched
  | .answered (.initiateTransfer _) a => ∃ fetched, a = initiateTransfer fetched
  | _ => True

lemma ofResponse_tells {p : Pool App L X} {ev : Event App L V} {i : ℕ} {ds : List (Did App)} (h : Wired p ev)
    (htells : Tells i ev ds) : ∀ d ∈ ds, OfResponse d := by
  intro d hd
  cases htells with
  | exec | send | fail => rw [List.mem_singleton.mp hd]; trivial
  | lost =>
    simp only [List.mem_cons, List.not_mem_nil, or_false] at hd
    rcases hd with rfl | rfl <;> trivial
  | answer q o =>
    rw [List.mem_singleton.mp hd]
    obtain ⟨hverify, hinitiate⟩ := h i o rfl
    cases q with
    | verifyTransfer reference => exact hverify reference
    | initiateTransfer params => exact hinitiate params
    | _ => trivial
  | finish | crash => cases hd

end Wires

/-! ### The next attempt -/

/-- Whoever claims an attempt after the first had the attempt before it verified, by a response in which Paystack
does not know it, or says that it failed or was reversed. -/
def VerifiedByResponse (before : List (ℕ × Did App)) (x : ℕ × Did App) : Prop :=
  ∀ payout, claimOf x.2 = some payout → ∀ n, 1 ≤ n → payout.attempts = n + 1 → ∃ fetched,
    (x.1, .answered (.verifyTransfer (transferReference payout.id n)) (verifyTransfer fetched)) ∈ before ∧
      (Unknown fetched ∨ Reports fetched "failed" ∨ Reports fetched "reversed")

/-- **Money is not sent again in doubt**: no error, no timeout, no status that is not known, and no response that
is none leads to another attempt. -/
theorem not_resent_in_doubt {p₀ p : Pool App Operation Unit} {evs : List (Event App Operation Db)}
    (hruns : p₀.runs = []) (hrefs : RefsAgree p₀.store) (hwired : Along services Wired p₀ evs)
    (hrun : run services p₀ evs = some p) : Throughout VerifiedByResponse (history services p₀ evs) := by
  obtain ⟨hclaiming, hof⟩ := run_history_along (P := fun h p => Claiming p₀.store h p ∧ ∀ x ∈ h, OfResponse x.2)
    hruns ⟨claiming_start hruns hrefs, fun x hx => by cases hx⟩
    (fun h p ev p' hlogs hP hok hs => ⟨claiming_step hlogs hP.1 hs, fun x hx => by
      rcases List.mem_append.mp hx with hx | hx
      · exact hP.2 x hx
      rcases news_of_step hs with ⟨hnews, -⟩ | ⟨i, _, _, ds, -, -, -, -, hnews, htells⟩
      · rw [hnews] at hx
        cases hx
      · rw [hnews] at hx
        obtain ⟨d, hd, rfl⟩ := List.mem_map.mp hx
        exact ofResponse_tells hok htells d hd⟩) hwired hrun
  intro before x hpre payout hclaim n hn hattempts
  obtain ⟨status, hmoved, hmem⟩ := (hclaiming.verified before x hpre payout hclaim).2 n hn hattempts
  obtain ⟨fetched, hfetched⟩ := hof _ (hpre.subset (List.mem_append_left _ hmem))
  refine ⟨fetched, by rw [← hfetched]; exact hmem, verified_movedNoMoney.mp ⟨status, hfetched.symm, hmoved⟩⟩

/-! ### A transfer that failed -/

/-- A response about a transfer. -/
def reporting (said : String) : Fetched :=
  .response 200 "OK" (.ok (.obj [("status", .bool true), ("data", .obj [("status", .str said)])]))

/-- Paystack's part of a run. -/
def overHttp (fetched : Fetched) : (q : Ask) → Except Err (Ans q)
  | .verifyTransfer _ => verifyTransfer fetched
  | .initiateTransfer _ => initiateTransfer fetched
  | q => agreeable q

lemma along_wired {L X V : Type} {env : Outside App L X V} {p : Pool App L X} {evs : List (Event App L V)}
    (h : ∀ i o, .answer i o ∈ evs → ∃ fetched, o = overHttp fetched) : Along env Wired p evs := by
  induction evs generalizing p with
  | nil => trivial
  | cons ev evs ih =>
    refine ⟨fun i o hev => ?_, fun p' _ => ih fun i o hmem => h i o (List.mem_cons_of_mem _ hmem)⟩
    obtain ⟨fetched, rfl⟩ := h i o (hev ▸ List.mem_cons_self)
    exact ⟨fun _ => ⟨fetched, rfl⟩, fun _ => ⟨fetched, rfl⟩⟩

/-- The first attempt is queued at Paystack, then it failed, and the second is claimed. -/
def failedThenClaimed : List (Event App Operation Db) :=
  .start (.processPayout (uid 11)) :: execs 0 [1, 2, 3] ++ asks 0 (overHttp (reporting "pending")) ++ execs 0 [4] ++
    asks 0 (overHttp (reporting "queued")) ++ .start (.processPayout (uid 11)) :: execs 1 [5] ++
    asks 1 (overHttp (reporting "failed")) ++ execs 1 [6, 7]

theorem not_resent_in_doubt_sample : ∃ p, run services ⟨payoutDb, (), []⟩ failedThenClaimed = some p ∧
    claimedOf (uid 11) (history services ⟨payoutDb, (), []⟩ failedThenClaimed) = [1, 2] ∧
    Throughout VerifiedByResponse (history services ⟨payoutDb, (), []⟩ failedThenClaimed) := by
  obtain ⟨p, hp⟩ := Option.isSome_iff_exists.mp
    (by decide +kernel : (run services ⟨payoutDb, (), []⟩ failedThenClaimed).isSome = true)
  refine ⟨p, hp, by decide +kernel, not_resent_in_doubt rfl (fun payout hpayout => ?_) (along_wired ?_) hp⟩
  · rw [(payoutDb_untried payout hpayout).transferReference, (payoutDb_untried payout hpayout).attempts]
    rfl
  · intro i o hmem
    simp only [failedThenClaimed, execs, asks, List.map_cons, List.map_nil, List.cons_append, List.nil_append,
      List.mem_cons, List.not_mem_nil, or_false, reduceCtorEq, false_or, Event.answer.injEq] at hmem
    rcases hmem with ⟨-, rfl⟩ | ⟨-, rfl⟩ | ⟨-, rfl⟩
    · exact ⟨_, rfl⟩
    · exact ⟨_, rfl⟩
    · exact ⟨_, rfl⟩

end Splitcore.Providers
