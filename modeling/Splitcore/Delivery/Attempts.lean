import Mathlib.Data.Set.Insert
import Mathlib.Tactic.Common

/-!
Numbered attempts to deliver one thing through a channel that loses and delays.

Somebody claims the next attempt, and whoever claimed one may send it. Before a new attempt is
claimed, the current one must have been found to be over: rejected for good by the receiver,
or unknown to it with nothing on the way and nobody left to send it. That is enough for the
thing to be delivered at most once.
-/

namespace Splitcore.Delivery

/-- What the receiver made of an attempt. -/
inductive Outcome where
  | open_
  | delivered
  | over
deriving DecidableEq

/-- The attempts at one delivery: the last one claimed, those claimed by somebody still about
to send them, those on the way, those received, and those somebody takes to be over. -/
structure Attempts where
  current : ℕ
  held : Set ℕ
  flying : Set ℕ
  outcome : ℕ → Option Outcome
  cleared : Set ℕ

namespace Attempts

variable {a a' : Attempts} {n m : ℕ}

/-- Attempt `n` delivers nothing, now or later. -/
def Over (a : Attempts) (n : ℕ) : Prop :=
  a.outcome n = some .over ∨ a.outcome n = none ∧ n ∉ a.flying ∧ n ∉ a.held

def Used (a : Attempts) (n : ℕ) : Prop := n ∈ a.held ∨ n ∈ a.flying ∨ a.outcome n ≠ none

/-- The attempts held, on the way and cleared are only dropped, except as told. -/
structure Within (a a' : Attempts) (held flying cleared : Set ℕ) : Prop where
  held : a'.held ⊆ a.held ∪ held
  flying : a'.flying ⊆ a.flying ∪ flying
  cleared : a'.cleared ⊆ a.cleared ∪ cleared

/-- One step of the parties, of the channel or of the receiver. -/
inductive Step (a a' : Attempts) : Prop
  /-- Knowledge, or a message, is lost. -/
  | drop (hcurrent : a'.current = a.current) (houtcome : a'.outcome = a.outcome)
      (h : Within a a' ∅ ∅ ∅)
  /-- An attempt is found to be over. -/
  | clear (n : ℕ) (hover : Over a n) (hn : n ≤ a.current) (hcurrent : a'.current = a.current)
      (houtcome : a'.outcome = a.outcome) (h : Within a a' ∅ ∅ {n})
  /-- The next attempt is claimed. -/
  | claim (hcleared : a.current ∈ a.cleared) (hcurrent : a'.current = a.current + 1)
      (houtcome : a'.outcome = a.outcome) (h : Within a a' {a.current + 1} ∅ ∅)
  | send (n : ℕ) (hheld : n ∈ a.held) (hcurrent : a'.current = a.current)
      (houtcome : a'.outcome = a.outcome) (h : Within a a' ∅ {n} ∅)
  /-- A message arrives; the receiver ignores a second one. -/
  | receive (n : ℕ) (hflying : n ∈ a.flying) (hcurrent : a'.current = a.current)
      (hthis : a'.outcome n = some ((a.outcome n).getD .open_))
      (houtcome : ∀ m, m ≠ n → a'.outcome m = a.outcome m) (h : Within a a' ∅ ∅ ∅)
  /-- The receiver goes on with an attempt it has. -/
  | progress (n : ℕ) (o : Outcome) (hopen : a.outcome n ≠ some .over)
      (hreceived : a.outcome n ≠ none) (hcurrent : a'.current = a.current)
      (hthis : a'.outcome n = some o) (houtcome : ∀ m, m ≠ n → a'.outcome m = a.outcome m)
      (h : Within a a' ∅ ∅ ∅)

/-- All attempts but the current one are over, and so is every attempt taken to be. -/
structure Safe (a : Attempts) : Prop where
  earlier : ∀ n, n < a.current → Over a n
  cleared : ∀ n ∈ a.cleared, Over a n ∧ n ≤ a.current
  used : ∀ n, Used a n → 0 < n ∧ n ≤ a.current

/-- What is over stays over, unless it is claimed or sent. -/
lemma Over.of_within (ho : Over a n) {held flying cleared : Set ℕ}
    (h : Within a a' held flying cleared) (houtcome : a'.outcome n = a.outcome n)
    (hheld : n ∉ held) (hflying : n ∉ flying) : Over a' n := by
  rcases ho with ho | ⟨ho, hf, hh⟩
  · exact .inl (houtcome.trans ho)
  · refine .inr ⟨houtcome.trans ho, fun hc => ?_, fun hc => ?_⟩
    · exact (h.flying hc).elim hf hflying
    · exact (h.held hc).elim hh hheld

/-- A step leaves alone what is over, but for the attempt it claims. -/
lemma Over.step (ho : Over a n) (h : Step a a') (hn : n ≤ a.current) : Over a' n := by
  cases h with
  | drop hcurrent houtcome h => exact ho.of_within h (congrFun houtcome n) (by simp) (by simp)
  | clear m hover hm hcurrent houtcome h =>
    exact ho.of_within h (congrFun houtcome n) (by simp) (by simp)
  | claim hcleared hcurrent houtcome h =>
    refine ho.of_within h (congrFun houtcome n) ?_ (by simp)
    rw [Set.mem_singleton_iff]; omega
  | send m hheld hcurrent houtcome h =>
    have hother := congrFun houtcome n
    rcases ho with ho | ⟨ho, hf, hh⟩
    · exact .inl (hother.trans ho)
    · have hne : n ≠ m := fun hc => hh (hc ▸ hheld)
      exact Over.of_within (.inr ⟨ho, hf, hh⟩) h hother (by simp) (by simpa using hne)
  | receive m hflying hcurrent hthis houtcome h =>
    by_cases hne : n = m
    · subst hne
      rcases ho with ho | ⟨-, hf, -⟩
      · exact .inl (by rw [hthis, ho]; rfl)
      · exact absurd hflying hf
    · exact ho.of_within h (houtcome n hne) (by simp) (by simp)
  | progress m o hopen hreceived hcurrent hthis houtcome h =>
    have hne : n ≠ m := by
      rintro rfl
      rcases ho with ho | ⟨ho, -⟩
      · exact hopen ho
      · exact hreceived ho
    exact ho.of_within h (houtcome n hne) (by simp) (by simp)

/-- What is in use after a step was in use before, or is the attempt just claimed. -/
lemma Used.of_step (hu : Used a' n) (h : Step a a') :
    Used a n ∨ n = a.current + 1 ∧ a'.current = a.current + 1 := by
  have hkeep : ∀ {held flying cleared : Set ℕ}, Within a a' held flying cleared →
      (n ∈ held → Used a n ∨ n = a.current + 1 ∧ a'.current = a.current + 1) →
      (n ∈ flying → Used a n) → (a'.outcome n ≠ none → Used a n) →
      Used a n ∨ n = a.current + 1 ∧ a'.current = a.current + 1 := by
    intro held flying cleared hw hheld hflying houtcome
    rcases hu with hu | hu | hu
    · exact (hw.held hu).elim (fun h => .inl (.inl h)) hheld
    · exact (hw.flying hu).elim (fun h => .inl (.inr (.inl h))) fun h => .inl (hflying h)
    · exact .inl (houtcome hu)
  have hsame : a'.outcome = a.outcome → a'.outcome n ≠ none → Used a n :=
    fun heq hne => .inr (.inr (by rwa [← heq]))
  cases h with
  | drop hcurrent houtcome h => exact hkeep h (by simp) (by simp) (hsame houtcome)
  | clear m hover hm hcurrent houtcome h => exact hkeep h (by simp) (by simp) (hsame houtcome)
  | claim hcleared hcurrent houtcome h =>
    exact hkeep h (fun hn => .inr ⟨hn, hcurrent⟩) (by simp) (hsame houtcome)
  | send m hheld hcurrent houtcome h =>
    refine hkeep h (by simp) (fun hn => ?_) (hsame houtcome)
    rw [Set.mem_singleton_iff.mp hn]; exact .inl hheld
  | receive m hflying hcurrent hthis houtcome h =>
    refine hkeep h (by simp) (by simp) fun hne => ?_
    by_cases hm : n = m
    · rw [hm]; exact .inr (.inl hflying)
    · exact .inr (.inr (by rwa [← houtcome n hm]))
  | progress m o hopen hreceived hcurrent hthis houtcome h =>
    refine hkeep h (by simp) (by simp) fun hne => ?_
    by_cases hm : n = m
    · rw [hm]; exact .inr (.inr hreceived)
    · exact .inr (.inr (by rwa [← houtcome n hm]))

lemma Step.current_le (h : Step a a') : a.current ≤ a'.current := by
  cases h <;> omega

/-- **Every step keeps the attempts safe.** -/
theorem Safe.step (hs : Safe a) (h : Step a a') : Safe a' := by
  have hle := h.current_le
  refine ⟨fun n hn => ?_, fun n hn => ?_, fun n hu => ?_⟩
  · -- a new current attempt is claimed only when the last one is over
    rcases Nat.lt_or_ge n a.current with hlt | hge
    · exact (hs.earlier n hlt).step h hlt.le
    · cases h with
      | claim hcleared hcurrent houtcome hw =>
        obtain rfl : n = a.current := by omega
        exact (hs.cleared _ hcleared).1.step (.claim hcleared hcurrent houtcome hw) le_rfl
      | _ => omega
  · have hnew : n ∈ a.cleared ∨ Over a n ∧ n ≤ a.current := by
      cases h with
      | clear m hover hm hcurrent houtcome hw =>
        refine (hw.cleared hn).imp id fun hnm => ?_
        rw [Set.mem_singleton_iff.mp hnm]; exact ⟨hover, hm⟩
      | drop _ _ hw | claim _ _ _ hw | send _ _ _ _ hw | receive _ _ _ _ _ hw
      | progress _ _ _ _ _ _ _ hw => exact .inl (by simpa using hw.cleared hn)
    obtain ⟨hover, hn⟩ := hnew.elim (hs.cleared n) id
    exact ⟨hover.step h hn, hn.trans hle⟩
  · rcases hu.of_step h with hu | ⟨rfl, hcurrent⟩
    · have := hs.used n hu
      omega
    · omega

/-- An attempt nobody has used is over. -/
lemma Safe.over_zero (hs : Safe a) : Over a 0 := by
  have hunused : ¬ Used a 0 := fun hu => absurd (hs.used 0 hu).1 (by omega)
  simp only [Used, not_or, not_not] at hunused
  exact .inr ⟨hunused.2.2, hunused.2.1, hunused.1⟩

/-- **Delivered at most once.** -/
theorem Safe.delivered_once (hs : Safe a) (hn : a.outcome n = some .delivered)
    (hm : a.outcome m = some .delivered) : n = m := by
  have hcurrent : ∀ k, a.outcome k = some .delivered → k = a.current := by
    intro k hk
    have hle := (hs.used k (.inr (.inr (by simp [hk])))).2
    rcases Nat.lt_or_ge k a.current with hlt | hge
    · rcases hs.earlier k hlt with ho | ⟨ho, -⟩ <;> rw [hk] at ho <;> cases ho
    · omega
  rw [hcurrent n hn, hcurrent m hm]

end Attempts

end Splitcore.Delivery
