import Mathlib.Algebra.Order.BigOperators.Group.List
import Mathlib.Algebra.Order.Floor.Ring
import Mathlib.Data.Rat.Floor
import Mathlib.Tactic.Linarith
import Mathlib.Tactic.Ring

/-!
Rounding to doubles: sums of integers, and the floor of a quotient.

A quotient that is rounded to a double and then floored is the quotient of integers as long as a
double lies between the largest value under the next integer and that integer. Nothing is used of the
rounding but that it is monotone and keeps what has 53 binary digits, whatever the direction it rounds in.
-/

namespace Splitcore.Rounding

/-- Rounding to 53 binary digits. -/
structure Rounds (fl : ℚ → ℚ) : Prop where
  monotone : Monotone fl
  exact : ∀ (k : ℤ) (j : ℕ), |k| ≤ 2 ^ 53 → j ≤ 1022 → fl (k / 2 ^ j) = k / 2 ^ j

variable {fl : ℚ → ℚ}

/-- Integers of 53 binary digits are doubles. -/
lemma Rounds.integer (h : Rounds fl) {k : ℤ} (hk : |k| ≤ 2 ^ 53) : fl k = k := by
  simpa using h.exact k 0 hk (by omega)

/-- **Sums of integers are exact** while what is summed has 53 binary digits in all. -/
lemma Rounds.foldl_add (h : Rounds fl) (xs : List ℤ) (x : ℤ)
    (hfit : |x| + (xs.map fun y => |y|).sum ≤ 2 ^ 53) :
    xs.foldl (fun (sum : ℚ) (y : ℤ) => fl (sum + y)) x = ((x + xs.sum : ℤ) : ℚ) := by
  induction xs generalizing x with
  | nil => simp
  | cons y xs ih =>
    rw [List.map_cons, List.sum_cons] at hfit
    have habs := abs_add_le x y
    have hrest : 0 ≤ (xs.map fun y => |y|).sum := List.sum_nonneg fun z hz => by
      obtain ⟨w, -, rfl⟩ := List.mem_map.mp hz
      exact abs_nonneg w
    have hexact : fl ((x : ℚ) + y) = ((x + y : ℤ) : ℚ) := by
      rw [← Int.cast_add, h.integer (by omega)]
    rw [List.foldl_cons, hexact, ih _ (by omega), List.sum_cons, add_assoc]

/-- The last double of `j` binary places under the next integer is over the quotient. -/
lemma div_le_below {a n : ℤ} {j : ℕ} (hn : 0 < n) (hj : n ≤ 2 ^ j) :
    (a : ℚ) / n ≤ (((a / n + 1) * 2 ^ j - 1 : ℤ) : ℚ) / 2 ^ j := by
  have hlast : a ≤ (a / n + 1) * n - 1 := by
    have := Int.lt_ediv_add_one_mul_self a hn
    omega
  have hscaled : a * 2 ^ j ≤ ((a / n + 1) * 2 ^ j - 1) * n := by
    calc a * 2 ^ j ≤ ((a / n + 1) * n - 1) * 2 ^ j := mul_le_mul_of_nonneg_right hlast (by positivity)
      _ = (a / n + 1) * 2 ^ j * n - 2 ^ j := by ring
      _ ≤ (a / n + 1) * 2 ^ j * n - n := by omega
      _ = ((a / n + 1) * 2 ^ j - 1) * n := by ring
  rw [div_le_div_iff₀ (by exact_mod_cast hn) (by positivity)]
  exact_mod_cast hscaled

/-- **The floor of a rounded quotient** is the quotient of the integers. -/
theorem Rounds.floor_div (h : Rounds fl) {a n : ℤ} {j : ℕ} (ha : 0 ≤ a) (hn : 0 < n) (hj : n ≤ 2 ^ j)
    (hplaces : j ≤ 1022) (hfit : (a / n + 1) * 2 ^ j ≤ 2 ^ 53) : ⌊fl (a / n)⌋ = a / n := by
  have hquotient : 0 ≤ a / n := Int.ediv_nonneg ha hn.le
  have hone : (1 : ℤ) ≤ 2 ^ j := one_le_pow₀ (by decide)
  rw [Int.floor_eq_iff]
  constructor
  · have hle : a / n + 1 ≤ 2 ^ 53 :=
      (le_mul_of_one_le_right (by omega) hone).trans hfit
    rw [← h.integer (k := a / n) (by rw [abs_of_nonneg hquotient]; omega)]
    refine h.monotone ?_
    rw [le_div_iff₀ (by exact_mod_cast hn)]
    exact_mod_cast Int.ediv_mul_le a hn.ne'
  · have hbelow : fl (a / n) ≤ (((a / n + 1) * 2 ^ j - 1 : ℤ) : ℚ) / 2 ^ j := by
      rw [← h.exact _ j ?_ hplaces]
      · exact h.monotone (div_le_below hn hj)
      · have hlow : 1 * 1 ≤ (a / n + 1) * 2 ^ j :=
          mul_le_mul (by omega) hone (by decide) (by omega)
        rw [abs_of_nonneg (by omega)]
        omega
    refine hbelow.trans_lt ?_
    rw [div_lt_iff₀ (by positivity)]
    push_cast
    linarith

end Splitcore.Rounding
