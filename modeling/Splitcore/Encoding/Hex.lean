import Mathlib.Data.List.Basic
import Mathlib.Data.UInt

/-!
Bytes written as hexadecimal digits, and read by a reader that takes digits of either case and stops at
the first pair that is none.
-/

namespace Splitcore.Encoding

/-! ### Digits -/

/-- The value of a hexadecimal digit of either case. -/
def hexValue (c : Char) : Option ℕ :=
  if 48 ≤ c.toNat ∧ c.toNat ≤ 57 then some (c.toNat - 48)
  else if 97 ≤ c.toNat ∧ c.toNat ≤ 102 then some (c.toNat - 87)
  else if 65 ≤ c.toNat ∧ c.toNat ≤ 70 then some (c.toNat - 55)
  else none

lemma hexValue_lt {c : Char} {x : ℕ} (h : hexValue c = some x) : x < 16 := by
  unfold hexValue at h
  split at h
  · cases h
    omega
  split at h
  · cases h
    omega
  split at h
  · cases h
    omega
  · cases h

lemma hexValue_digitChar {x : ℕ} (h : x < 16) : hexValue (Nat.digitChar x) = some x := by
  have hall : ∀ i < 16, hexValue (Nat.digitChar i) = some i := by decide
  exact hall x h

/-! ### Writing and reading -/

/-- The digits of the bytes, the high half of each first. -/
def toHex : List UInt8 → List Char
  | [] => []
  | b :: bs => Nat.digitChar (b.toNat / 16) :: Nat.digitChar (b.toNat % 16) :: toHex bs

/-- The byte of a pair of digits. -/
def byteOf (a b : Char) : Option UInt8 := do
  let x ← hexValue a
  let y ← hexValue b
  pure (UInt8.ofNat (16 * x + y))

/-- The bytes of the pairs of digits the text starts with; the rest of it is left out. -/
def fromHex : List Char → List UInt8
  | a :: b :: rest => match byteOf a b with
    | some byte => byte :: fromHex rest
    | none => []
  | _ => []

/-- The text is the digits of the bytes, each of either case. -/
def Spells (digits : List Char) (bytes : List UInt8) : Prop := digits.map hexValue = (toHex bytes).map hexValue

variable {a b : Char} {byte : UInt8} {bytes : List UInt8} {digits rest text : List Char}

lemma byteOf_eq_some : byteOf a b = some byte ↔
    hexValue a = some (byte.toNat / 16) ∧ hexValue b = some (byte.toNat % 16) := by
  have hbyte := byte.toNat_lt
  constructor
  · intro h
    obtain ⟨x, hx, h⟩ := Option.bind_eq_some_iff.mp h
    obtain ⟨y, hy, h⟩ := Option.bind_eq_some_iff.mp h
    cases h
    have hx' := hexValue_lt hx
    have hy' := hexValue_lt hy
    have hnat : (UInt8.ofNat (16 * x + y)).toNat = 16 * x + y := by
      rw [UInt8.toNat_ofNat']
      omega
    rw [hnat, hx, hy]
    exact ⟨congrArg some (by omega), congrArg some (by omega)⟩
  · rintro ⟨ha, hb⟩
    simp only [byteOf, ha, hb, Option.bind_eq_bind, Option.bind_some, Option.pure_def, Option.some.injEq]
    rw [show 16 * (byte.toNat / 16) + byte.toNat % 16 = byte.toNat by omega, UInt8.ofNat_toNat]

lemma spells_cons : Spells (a :: b :: digits) (byte :: bytes) ↔ byteOf a b = some byte ∧ Spells digits bytes := by
  have hbyte := byte.toNat_lt
  rw [byteOf_eq_some, Spells, Spells, toHex]
  simp only [List.map_cons, List.cons.injEq, hexValue_digitChar (show byte.toNat / 16 < 16 by omega),
    hexValue_digitChar (show byte.toNat % 16 < 16 by omega), and_assoc]

/-- **Digits of bytes are read as the bytes**, whatever comes after them is read as. -/
theorem fromHex_append (h : Spells digits bytes) : fromHex (digits ++ rest) = bytes ++ fromHex rest := by
  induction bytes generalizing digits with
  | nil =>
    obtain rfl : digits = [] := by simpa [Spells, toHex] using h
    rfl
  | cons byte bytes ih =>
    match digits, h with
    | [], h => cases h
    | [_], h => simp [Spells, toHex] at h
    | a :: b :: digits, h =>
      obtain ⟨hpair, hrest⟩ := spells_cons.mp h
      rw [List.cons_append, List.cons_append, fromHex, hpair]
      exact congrArg (byte :: ·) (ih hrest)

/-- A text is the digits of what is read of it, and something of which nothing is read. -/
lemma exists_spells (text : List Char) :
    ∃ digits rest, text = digits ++ rest ∧ Spells digits (fromHex text) ∧ fromHex rest = [] := by
  induction text using fromHex.induct with
  | case1 a b rest byte hpair ih =>
    obtain ⟨digits, rest', rfl, hspells, hnothing⟩ := ih
    refine ⟨a :: b :: digits, rest', rfl, ?_, hnothing⟩
    rw [fromHex, hpair]
    exact spells_cons.mpr ⟨hpair, hspells⟩
  | case2 a b rest hpair =>
    have hnothing : fromHex (a :: b :: rest) = [] := by rw [fromHex, hpair]
    exact ⟨[], _, rfl, by rw [hnothing]; rfl, hnothing⟩
  | case3 text hshort =>
    have hnothing : fromHex text = [] := by
      match text, hshort with
      | [], _ => rfl
      | [_], _ => rfl
      | a :: b :: rest, hshort => exact (hshort a b rest rfl).elim
    exact ⟨[], text, rfl, by rw [hnothing]; rfl, hnothing⟩

/-- **Which texts are read as the bytes**: their digits, in either case, and something of which nothing is
read. -/
theorem fromHex_eq_iff : fromHex text = bytes ↔
    ∃ digits rest, text = digits ++ rest ∧ Spells digits bytes ∧ fromHex rest = [] := by
  constructor
  · rintro rfl
    exact exists_spells text
  · rintro ⟨digits, rest, rfl, hspells, hnothing⟩
    rw [fromHex_append hspells, hnothing, List.append_nil]

end Splitcore.Encoding
