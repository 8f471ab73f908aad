import Mathlib.Data.List.Count
import Mathlib.Data.List.Pairwise
import Mathlib.Tactic.Common

/-!
Queries with a `LIMIT` and no `ORDER BY`: how many of the rows returned meet a condition the query does not
ask for, by the order the database goes in.
-/

namespace Splitcore.Relational

variable {α : Type} {rows ordered : List α} {p : α → Bool} {n : ℕ}

/-- As many of the rows returned meet the condition as there are and can be returned. -/
def Fair (n : ℕ) (p : α → Bool) (ordered : List α) : Prop := min n (ordered.countP p) ≤ (ordered.take n).countP p

/-- The rows all fit, or are all alike. -/
def NoContest (n : ℕ) (p : α → Bool) (rows : List α) : Prop :=
  rows.length ≤ n ∨ rows.countP p = 0 ∨ rows.countP p = rows.length

lemma NoContest.perm (hperm : ordered.Perm rows) : NoContest n p ordered ↔ NoContest n p rows := by
  rw [NoContest, NoContest, hperm.length_eq, hperm.countP_eq]

lemma NoContest.fair (h : NoContest n p ordered) : Fair n p ordered := by
  unfold Fair
  rcases h with hfits | hnone | hall
  · rw [List.take_of_length_le hfits]
    exact Nat.min_le_right _ _
  · rw [hnone]
    exact Nat.le_trans (Nat.min_le_right _ _) (Nat.zero_le _)
  · have htaken : (ordered.take n).countP p = (ordered.take n).length :=
      List.countP_eq_length.mpr fun a ha => List.countP_eq_length.mp hall a (List.mem_of_mem_take ha)
    have heq : min n (ordered.countP p) = (ordered.take n).countP p := by
      rw [htaken, hall, List.length_take]
    exact Nat.le_of_eq heq

/-! ### The worst order -/

/-- The rows that do not meet the condition are ahead of those that do. -/
def FailingFirst (p : α → Bool) (ordered : List α) : Prop := ordered.Pairwise fun a b => p a = true → p b = true

lemma FailingFirst.split (h : FailingFirst p ordered) : ordered = ordered.filter (!p ·) ++ ordered.filter p := by
  induction ordered with
  | nil => rfl
  | cons a rows ih =>
    obtain ⟨hhead, htail⟩ := List.pairwise_cons.mp h
    by_cases hp : p a = true
    · have hall : rows.filter p = rows := List.filter_eq_self.mpr fun b hb => hhead b hb hp
      have hnone : rows.filter (!p ·) = [] := List.filter_eq_nil_iff.mpr fun b hb => by simp [hhead b hb hp]
      simp [hp, hall, hnone]
    · simp only [Bool.not_eq_true] at hp
      simpa [hp] using ih htail

/-- The limit is used up by those that do not. -/
lemma FailingFirst.countP_take (h : FailingFirst p ordered) :
    (ordered.take n).countP p = min (n - ordered.countP (!p ·)) (ordered.countP p) := by
  have hfirst : ∀ k, ((ordered.filter (!p ·)).take k).countP p = 0 := fun k =>
    List.countP_eq_zero.mpr fun a ha => by simpa using (List.mem_filter.mp (List.mem_of_mem_take ha)).2
  have hlast : ∀ k, ((ordered.filter p).take k).countP p = min k (ordered.countP p) := fun k => by
    rw [List.countP_eq_length.mpr fun a ha => (List.mem_filter.mp (List.mem_of_mem_take ha)).2, List.length_take,
      List.countP_eq_length_filter]
  calc (ordered.take n).countP p = ((ordered.filter (!p ·) ++ ordered.filter p).take n).countP p := by rw [← h.split]
    _ = min (n - (ordered.filter (!p ·)).length) (ordered.countP p) := by
        rw [List.take_append, List.countP_append, hfirst, hlast, Nat.zero_add]
    _ = min (n - ordered.countP (!p ·)) (ordered.countP p) := by rw [← List.countP_eq_length_filter]

/-- **When a limit is fair in the worst order**, and so in every order. -/
theorem FailingFirst.fair_iff (h : FailingFirst p ordered) (hn : 0 < n) :
    Fair n p ordered ↔ NoContest n p ordered := by
  refine ⟨fun hfair => ?_, NoContest.fair⟩
  have hsplit : ordered.length = ordered.countP p + ordered.countP (!p ·) := by
    rw [List.length_eq_countP_add_countP p]
    simp only [Bool.not_eq_true, Bool.decide_eq_false]
  unfold Fair at hfair
  rw [h.countP_take] at hfair
  unfold NoContest
  omega

end Splitcore.Relational
