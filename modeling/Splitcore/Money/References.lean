import Splitcore.Money.Payouts

/-!
Transfer references: no two attempts share one.
-/

namespace Splitcore.Money

open Relational

/-! ### Identifiers as text -/

lemma digitChar_ne_dash {n : ℕ} (h : n < 16) : Nat.digitChar n ≠ '-' := by
  have hall : ∀ i < 16, Nat.digitChar i ≠ '-' := by decide
  exact hall n h

lemma digitChar_inj {m n : ℕ} (hm : m < 16) (hn : n < 16) (h : Nat.digitChar m = Nat.digitChar n) :
    m = n := by
  have hall : ∀ i < 16, ∀ j < 16, Nat.digitChar i = Nat.digitChar j → i = j := by decide
  exact hall m hm n hn h

/-- A number below `b ^ k` is given by its digits at the places below `k`. -/
lemma eq_of_digits {b k m n : ℕ} (hm : m < b ^ k) (hn : n < b ^ k)
    (h : ∀ i < k, m / b ^ i % b = n / b ^ i % b) : m = n := by
  induction k generalizing m n with
  | zero => rw [Nat.pow_zero] at hm hn; omega
  | succ k ih =>
    have hlow : m % b = n % b := by simpa using h 0 (by omega)
    have hpos : 0 < b := by
      rcases Nat.eq_zero_or_pos b with rfl | hb
      · simp at hm
      · exact hb
    have hhigh : m / b = n / b := by
      refine ih ?_ ?_ fun i hi => ?_
      · rw [Nat.div_lt_iff_lt_mul hpos, ← Nat.pow_succ]; exact hm
      · rw [Nat.div_lt_iff_lt_mul hpos, ← Nat.pow_succ]; exact hn
      · have := h (i + 1) (by omega)
        rwa [Nat.pow_succ', ← Nat.div_div_eq_div_mul, ← Nat.div_div_eq_div_mul] at this
    rw [← Nat.div_add_mod m b, ← Nat.div_add_mod n b, hlow, hhigh]

lemma length_hex (u : Uuid) : u.hex.length = 32 := by simp [Uuid.hex]

lemma hex_inj {u v : Uuid} (h : u.hex = v.hex) : u = v := by
  have hbits : u.bits.toNat = v.bits.toNat := by
    refine eq_of_digits (b := 16) (k := 32) (by omega) (by omega) fun i hi => ?_
    have hget := congrArg (·[31 - i]?) h
    simp only [Uuid.hex, List.getElem?_map, List.getElem?_range (show 31 - i < 32 by omega),
      Option.map_some, Option.some.injEq] at hget
    rw [show 31 - (31 - i) = i by omega] at hget
    exact digitChar_inj (Nat.mod_lt _ (by omega)) (Nat.mod_lt _ (by omega)) hget
  cases u; cases v
  exact congrArg Uuid.mk (BitVec.eq_of_toNat_eq hbits)

/-- Without its dashes the text of an identifier is its digits. -/
lemma text_filter (u : Uuid) : u.text.filter (· ≠ '-') = u.hex := by
  have hdigits : ∀ c ∈ u.hex, c ≠ '-' := by
    intro c hc
    obtain ⟨i, -, rfl⟩ := List.mem_map.mp hc
    exact digitChar_ne_dash (Nat.mod_lt _ (by omega))
  have hkeep : ∀ l : List Char, (∀ c ∈ l, c ∈ u.hex) → l.filter (fun c => decide (c ≠ '-')) = l :=
    fun l hl => List.filter_eq_self.mpr fun c hc => by simpa using hdigits c (hl c hc)
  have htake : ∀ i k, ∀ c ∈ (u.hex.drop i).take k, c ∈ u.hex := fun i k c hc =>
    List.mem_of_mem_drop (List.mem_of_mem_take hc)
  rw [Uuid.text]
  simp only [List.filter_append, List.filter_cons, ne_eq, not_true_eq_false, decide_false,
    Bool.false_eq_true, if_false]
  simp only [ne_eq] at hkeep
  rw [hkeep _ fun c => List.mem_of_mem_take, hkeep _ (htake 8 4), hkeep _ (htake 12 4),
    hkeep _ (htake 16 4), hkeep _ fun c => List.mem_of_mem_drop]
  have hjoin : ∀ i j k, i + k = j → (u.hex.drop i).take k ++ u.hex.drop j = u.hex.drop i := by
    rintro i _ k rfl
    rw [← List.drop_drop, List.take_append_drop]
  rw [List.append_assoc, List.append_assoc, List.append_assoc, hjoin 16 20 4 rfl, hjoin 12 16 4 rfl,
    hjoin 8 12 4 rfl, List.take_append_drop]

/-! ### References -/

lemma transferReference_toList (payoutId : Uuid) (attempt : ℕ) :
    (transferReference payoutId attempt).toList =
      ['p', 'o', '_'] ++ payoutId.hex ++ '_' :: Nat.toDigits 10 attempt := by
  rw [transferReference, text_filter]
  simp [String.toList_append]

/-- **A reference is of one payout and one attempt.** -/
theorem transferReference_inj {payoutId payoutId' : Uuid} {attempt attempt' : ℕ} :
    transferReference payoutId attempt = transferReference payoutId' attempt' ↔
      payoutId = payoutId' ∧ attempt = attempt' := by
  refine ⟨fun h => ?_, fun ⟨hid, ha⟩ => by rw [hid, ha]⟩
  have hlist := congrArg String.toList h
  rw [transferReference_toList, transferReference_toList, List.append_assoc, List.append_assoc,
    List.append_cancel_left_eq] at hlist
  obtain ⟨hhex, hrest⟩ := List.append_inj hlist (by rw [length_hex, length_hex])
  have hdigits := congrArg (Nat.ofDigitChars 10 · 0) (List.cons.inj hrest).2
  simp only [Nat.ofDigitChars_ten_toDigits] at hdigits
  exact ⟨hex_inj hhex, hdigits⟩

lemma transferReference_ne_empty (payoutId : Uuid) (attempt : ℕ) :
    transferReference payoutId attempt ≠ "" := by
  intro h
  have hlist := congrArg String.toList h
  rw [transferReference_toList] at hlist
  simp at hlist

end Splitcore.Money
