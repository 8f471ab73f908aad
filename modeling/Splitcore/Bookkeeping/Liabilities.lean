import Mathlib.Algebra.BigOperators.Group.List.Basic
import Mathlib.Data.List.Nodup
import Mathlib.Tactic.Abel
import Mathlib.Tactic.Linarith

/-!
Liabilities and the account lines that record them.

A liability is owed on an account for a matter. It is incurred once, by a credit of its
amount; then it is discharged and perhaps restored, any number of times, each by a line on
the same account for the same matter. The balance of an account is what it was credited less
what it was debited. In a sound book that is the sum of the liabilities not discharged.
-/

namespace Splitcore.Bookkeeping

variable {α μ : Type}

structure Liability (α μ : Type) where
  account : α
  matter : μ
  amount : ℤ
  discharged : Bool

/-- A line on an account; a credit is a negative debit. -/
structure Line (α μ : Type) where
  account : α
  matter : μ
  /-- Whether the line incurs a liability, or discharges or restores one. -/
  incurs : Bool
  debit : ℤ

structure Book (α μ : Type) where
  liabilities : List (Liability α μ)
  lines : List (Line α μ)

/-- The sum of `f` over the members of a list with `p`. -/
def sumOf {β : Type} (p : β → Bool) (f : β → ℤ) (l : List β) : ℤ :=
  (l.map fun x => if p x then f x else 0).sum

section Sums

variable {β γ : Type} {p : β → Bool} {f : β → ℤ} {l l' : List β}

@[simp] lemma sumOf_nil : sumOf p f [] = 0 := rfl

@[simp] lemma sumOf_cons {x : β} : sumOf p f (x :: l) = (if p x then f x else 0) + sumOf p f l := by
  simp [sumOf]

@[simp] lemma sumOf_append : sumOf p f (l ++ l') = sumOf p f l + sumOf p f l' := by
  simp [sumOf]

lemma sumOf_map {g : γ → β} {l : List γ} : sumOf p f (l.map g) = sumOf (p ∘ g) (f ∘ g) l := by
  simp [sumOf, List.map_map, Function.comp_def]

lemma sumOf_filter : ((l.filter p).map f).sum = sumOf p f l := by
  induction l with
  | nil => rfl
  | cons x l ih => by_cases hx : p x = true <;> simp [hx, ih]

lemma sumOf_congr {q : β → Bool} {g : β → ℤ}
    (h : ∀ x ∈ l, (if p x then f x else 0) = if q x then g x else 0) :
    sumOf p f l = sumOf q g l := by
  rw [sumOf, sumOf, List.map_congr_left h]

lemma sumOf_le {q : β → Bool} {g : β → ℤ}
    (h : ∀ x ∈ l, (if p x then f x else 0) ≤ if q x then g x else 0) : sumOf p f l ≤ sumOf q g l := by
  induction l with
  | nil => exact le_rfl
  | cons x l ih =>
    have hx := h x (by simp)
    have hl := ih fun y hy => h y (List.mem_cons_of_mem _ hy)
    rw [sumOf_cons, sumOf_cons]
    omega

lemma sumOf_eq_zero (h : ∀ x ∈ l, p x = false) : sumOf p f l = 0 := by
  induction l with
  | nil => rfl
  | cons x l ih =>
    rw [sumOf_cons, ih fun y hy => h y (List.mem_cons_of_mem _ hy), h x (by simp)]
    simp

lemma sumOf_nonneg (h : ∀ x ∈ l, 0 ≤ f x) : 0 ≤ sumOf p f l := by
  induction l with
  | nil => exact le_rfl
  | cons x l ih =>
    have hx := h x (by simp)
    have hl := ih fun y hy => h y (List.mem_cons_of_mem _ hy)
    rw [sumOf_cons]
    split <;> omega

lemma sumOf_neg : sumOf p (fun x => -f x) l = -sumOf p f l := by
  induction l with
  | nil => rfl
  | cons x l ih =>
    rw [sumOf_cons, sumOf_cons, ih]
    split <;> omega

/-- **Sums over parts**: what several sums count, none of it twice, is no more than one sum counts. -/
theorem sum_sumOf_le [DecidableEq γ] {q : γ → β → Bool} {is : List γ} (hnodup : is.Nodup)
    (hone : ∀ x ∈ l, ∀ i j, q i x = true → q j x = true → i = j)
    (hin : ∀ x ∈ l, ∀ i, q i x = true → p x = true) (hpos : ∀ x ∈ l, p x = true → 0 ≤ f x) :
    (is.map fun i => sumOf (q i) f l).sum ≤ sumOf p f l := by
  induction l with
  | nil => simp
  | cons x l ih =>
    have hl := ih (fun y hy => hone y (List.mem_cons_of_mem _ hy)) (fun y hy => hin y (List.mem_cons_of_mem _ hy))
      (fun y hy => hpos y (List.mem_cons_of_mem _ hy))
    have hx : (is.map fun i => if q i x then f x else 0).sum ≤ if p x then f x else 0 := by
      by_cases hany : ∃ i ∈ is, q i x = true
      · -- one of them counts it, and the others do not
        obtain ⟨i, hi, hqi⟩ := hany
        have hrest : ∀ j, j ≠ i → j ∈ is → (if q j x then f x else 0) = 0 := fun j hji _ =>
          if_neg fun hqj => hji (hone x (by simp) j i hqj hqi)
        rw [List.sum_map_eq_nsmul_single i _ hrest, List.count_eq_one_of_mem hnodup hi, if_pos hqi,
          if_pos (hin x (by simp) i hqi), one_nsmul]
      · push Not at hany
        have hzero : (is.map fun i => if q i x then f x else 0).sum = 0 :=
          List.sum_eq_zero fun y hy => by
            obtain ⟨i, hi, rfl⟩ := List.mem_map.mp hy
            exact if_neg (hany i hi)
        rw [hzero]
        split
        · exact hpos x (by simp) ‹_›
        · exact le_rfl
    have hsplit : (is.map fun i => sumOf (q i) f (x :: l)).sum =
        (is.map fun i => if q i x then f x else 0).sum + (is.map fun i => sumOf (q i) f l).sum := by
      simp only [sumOf_cons, List.sum_map_add]
    rw [hsplit, sumOf_cons]
    omega

end Sums

namespace Liability

def key (l : Liability α μ) : α × μ := (l.account, l.matter)

/-- The line that incurs the liability. -/
def credit (l : Liability α μ) : Line α μ := ⟨l.account, l.matter, true, -l.amount⟩

/-- The line that discharges the liability, or restores it. -/
def move (l : Liability α μ) : Line α μ :=
  ⟨l.account, l.matter, false, if l.discharged then -l.amount else l.amount⟩

/-- Discharged, or restored. -/
def turned (l : Liability α μ) : Liability α μ := { l with discharged := !l.discharged }

end Liability

lemma lines_credit {new : List (Liability α μ)} (e : Line α μ)
    (he : e ∈ new.map Liability.credit) : e.incurs = true := by
  obtain ⟨l, -, rfl⟩ := List.mem_map.mp he
  rfl

variable [DecidableEq α] [DecidableEq μ]

namespace Book

variable {b b' : Book α μ}

/-- Debits less credits of the lines that discharge and restore, on an account for a matter. -/
def net (b : Book α μ) (a : α) (m : μ) : ℤ :=
  sumOf (fun e => e.account = a ∧ e.matter = m ∧ e.incurs = false) Line.debit b.lines

/-- Credits less debits of an account. -/
def balance (b : Book α μ) (a : α) : ℤ := -sumOf (fun e => e.account = a) Line.debit b.lines

/-- New liabilities, each with the credit that incurs it. -/
def incur (b : Book α μ) (new : List (Liability α μ)) : Book α μ :=
  ⟨b.liabilities ++ new, b.lines ++ new.map Liability.credit⟩

/-- A liability is discharged by a debit, or restored by a credit. -/
def turn (b : Book α μ) (l : Liability α μ) : Book α μ :=
  ⟨b.liabilities.map fun x => if x.key = l.key then x.turned else x, b.lines ++ [l.move]⟩

inductive Step (b : Book α μ) : Book α μ → Prop
  | stay : Step b b
  | incur (new : List (Liability α μ)) (hnew : ∀ l ∈ new, l.discharged = false ∧ 0 ≤ l.amount)
      (hkeys : ((b.liabilities ++ new).map Liability.key).Nodup) : Step b (b.incur new)
  | turn (l : Liability α μ) (hl : l ∈ b.liabilities) : Step b (b.turn l)

/-- What holds of every book kept by these steps. -/
structure Sound (b : Book α μ) : Prop where
  keys : (b.liabilities.map Liability.key).Nodup
  covered : ∀ e ∈ b.lines, ∃ l ∈ b.liabilities, l.key = (e.account, e.matter)
  nonneg : ∀ l ∈ b.liabilities, 0 ≤ l.amount
  net : ∀ l ∈ b.liabilities, b.net l.account l.matter = if l.discharged then l.amount else 0
  incurred : ∀ a, sumOf (fun e => e.account = a ∧ e.incurs = true) Line.debit b.lines =
    -sumOf (fun l => l.account = a) Liability.amount b.liabilities
  moved : ∀ a, sumOf (fun e => e.account = a ∧ e.incurs = false) Line.debit b.lines =
    sumOf (fun l => l.account = a ∧ l.discharged = true) Liability.amount b.liabilities

lemma sound_empty : (⟨[], []⟩ : Book α μ).Sound :=
  ⟨List.nodup_nil, by simp, by simp, by simp, by simp, by simp⟩

lemma Sound.eq_of_key (h : b.Sound) {l x : Liability α μ} (hl : l ∈ b.liabilities)
    (hx : x ∈ b.liabilities) (hk : x.key = l.key) : x = l :=
  List.inj_on_of_nodup_map h.keys hx hl hk

/-- Nothing was moved on an account for a matter that no liability is about. -/
lemma Sound.net_eq_zero (h : b.Sound) {a : α} {m : μ}
    (hno : ∀ l ∈ b.liabilities, l.key ≠ (a, m)) : b.net a m = 0 := by
  refine sumOf_eq_zero fun e he => decide_eq_false ?_
  rintro ⟨rfl, rfl, -⟩
  obtain ⟨l, hl, hk⟩ := h.covered e he
  exact hno l hl hk

theorem sound_incur (h : b.Sound) {new : List (Liability α μ)}
    (hnew : ∀ l ∈ new, l.discharged = false ∧ 0 ≤ l.amount)
    (hkeys : ((b.liabilities ++ new).map Liability.key).Nodup) : (b.incur new).Sound := by
  refine ⟨hkeys, fun e he => ?_, fun l hl => ?_, fun l hl => ?_, fun a => ?_, fun a => ?_⟩
  · rcases List.mem_append.mp he with he | he
    · obtain ⟨l, hl, hk⟩ := h.covered e he
      exact ⟨l, List.mem_append_left _ hl, hk⟩
    · obtain ⟨l, hl, rfl⟩ := List.mem_map.mp he
      exact ⟨l, List.mem_append_right _ hl, rfl⟩
  · rcases List.mem_append.mp hl with hl | hl
    · exact h.nonneg l hl
    · exact (hnew l hl).2
  · have hnet : (b.incur new).net l.account l.matter = b.net l.account l.matter := by
      simp only [Book.net, incur, sumOf_append]
      rw [add_eq_left]
      exact sumOf_eq_zero fun e he => by simp [lines_credit e he]
    rw [hnet]
    rcases List.mem_append.mp hl with hl | hl
    · exact h.net l hl
    · rw [(hnew l hl).1, if_neg (by simp)]
      refine h.net_eq_zero fun x hx hk => ?_
      rw [List.map_append] at hkeys
      exact List.disjoint_of_nodup_append hkeys (List.mem_map_of_mem hx)
        (by rw [hk]; exact List.mem_map_of_mem hl)
  · have hcredits : sumOf (fun e => e.account = a ∧ e.incurs = true) Line.debit
        (new.map Liability.credit) = -sumOf (fun l => l.account = a) Liability.amount new := by
      rw [sumOf_map, ← sumOf_neg]
      exact sumOf_congr fun l _ => by by_cases ha : l.account = a <;> simp [Liability.credit, ha]
    simp only [incur, sumOf_append, h.incurred a, hcredits]
    abel
  · have hold : sumOf (fun l => l.account = a ∧ l.discharged = true) Liability.amount new = 0 :=
      sumOf_eq_zero fun l hl => by simp [(hnew l hl).1]
    have hlines : sumOf (fun e => e.account = a ∧ e.incurs = false) Line.debit
        (new.map Liability.credit) = 0 :=
      sumOf_eq_zero fun e he => by simp [lines_credit e he]
    simp only [incur, sumOf_append, h.moved a, hold, hlines]

/-- The sum over the liabilities after one of them turned. -/
lemma Sound.sumOf_turn (h : b.Sound) {l : Liability α μ} (hl : l ∈ b.liabilities)
    (p : Liability α μ → Bool) : sumOf p Liability.amount (b.turn l).liabilities =
      sumOf p Liability.amount b.liabilities - (if p l then l.amount else 0) +
        if p l.turned then l.amount else 0 := by
  have hnodup := h.keys.of_map
  have honly : ∀ x ∈ b.liabilities, x.key = l.key → x = l := fun x hx => h.eq_of_key hl hx
  unfold turn
  simp only
  generalize b.liabilities = ls at hl hnodup honly
  induction ls with
  | nil => cases hl
  | cons x ls ih =>
    rw [List.nodup_cons] at hnodup
    rw [List.map_cons, sumOf_cons, sumOf_cons]
    by_cases hx : x = l
    · subst hx
      -- the others have other keys
      have hrest : ls.map (fun y => if y.key = x.key then y.turned else y) = ls := by
        refine (List.map_congr_left fun y hy => if_neg fun hk => hnodup.1 ?_).trans (List.map_id' _)
        rwa [← honly y (List.mem_cons_of_mem _ hy) hk]
      rw [hrest, if_pos rfl, show x.turned.amount = x.amount from rfl]
      abel
    · have hk : x.key ≠ l.key := fun hk => hx (honly x (by simp) hk)
      rw [if_neg hk, ih ((List.mem_cons.mp hl).resolve_left (Ne.symm hx)) hnodup.2
        fun y hy => honly y (List.mem_cons_of_mem _ hy)]
      abel

theorem sound_turn (h : b.Sound) {l : Liability α μ} (hl : l ∈ b.liabilities) :
    (b.turn l).Sound := by
  have hkey : ∀ x : Liability α μ, (if x.key = l.key then x.turned else x).key = x.key := by
    intro x; split <;> rfl
  have hamount : ∀ x : Liability α μ, (if x.key = l.key then x.turned else x).amount = x.amount := by
    intro x; split <;> rfl
  refine ⟨?_, fun e he => ?_, fun x hx => ?_, fun x hx => ?_, fun a => ?_, fun a => ?_⟩
  · have : (b.turn l).liabilities.map Liability.key = b.liabilities.map Liability.key := by
      rw [turn, List.map_map]
      exact List.map_congr_left fun x _ => hkey x
    rw [this]; exact h.keys
  · have hmem : ∀ x ∈ b.liabilities, ∃ y ∈ (b.turn l).liabilities, y.key = x.key := fun x hx =>
      ⟨_, List.mem_map_of_mem hx, hkey x⟩
    rcases List.mem_append.mp he with he | he
    · obtain ⟨x, hx, hk⟩ := h.covered e he
      obtain ⟨y, hy, hyx⟩ := hmem x hx
      exact ⟨y, hy, hyx.trans hk⟩
    · obtain rfl := List.mem_singleton.mp he
      exact hmem l hl
  · obtain ⟨y, hy, rfl⟩ := List.mem_map.mp hx
    rw [hamount]; exact h.nonneg y hy
  · obtain ⟨y, hy, rfl⟩ := List.mem_map.mp hx
    have hnet : ∀ a m, (b.turn l).net a m = b.net a m +
        if l.account = a ∧ l.matter = m then l.move.debit else 0 := by
      intro a m
      simp [Book.net, turn, Liability.move]
    have hy' := h.net y hy
    rw [hnet]
    by_cases hk : y.key = l.key
    · obtain rfl := h.eq_of_key hl hy hk
      rw [if_pos rfl]
      simp only [Liability.turned, Liability.move, hy', and_self, if_true]
      rcases Bool.eq_false_or_eq_true y.discharged with hd | hd <;> simp [hd]
    · have hne : ¬ (l.account = y.account ∧ l.matter = y.matter) := fun hc =>
        hk (Prod.ext hc.1.symm hc.2.symm)
      rw [if_neg hk, hy', if_neg hne, add_zero]
  · rw [h.sumOf_turn hl]
    simp only [turn, sumOf_append, h.incurred a, sumOf_cons, sumOf_nil, Liability.move,
      Liability.turned]
    by_cases ha : l.account = a <;> simp [ha]
  · rw [h.sumOf_turn hl]
    simp only [turn, sumOf_append, h.moved a, sumOf_cons, sumOf_nil, Liability.move,
      Liability.turned]
    rcases Bool.eq_false_or_eq_true l.discharged with hd | hd <;>
      by_cases ha : l.account = a <;> simp [ha, hd, sub_eq_add_neg]

theorem Step.sound (hs : Step b b') (h : b.Sound) : b'.Sound := by
  cases hs with
  | stay => exact h
  | incur new hnew hkeys => exact sound_incur h hnew hkeys
  | turn l hl => exact sound_turn h hl

/-- **The balance of an account is what is not discharged on it.** -/
theorem Sound.balance_eq (h : b.Sound) (a : α) : b.balance a =
    sumOf (fun l => l.account = a ∧ l.discharged = false) Liability.amount b.liabilities := by
  have hlines : sumOf (fun e => e.account = a) Line.debit b.lines =
      sumOf (fun e => e.account = a ∧ e.incurs = true) Line.debit b.lines +
        sumOf (fun e => e.account = a ∧ e.incurs = false) Line.debit b.lines := by
    induction b.lines with
    | nil => rfl
    | cons e es ih =>
      rw [sumOf_cons, sumOf_cons, sumOf_cons, ih]
      by_cases ha : e.account = a <;> cases e.incurs <;> simp [ha] <;> abel
  have hliabilities : sumOf (fun l => l.account = a) Liability.amount b.liabilities =
      sumOf (fun l => l.account = a ∧ l.discharged = true) Liability.amount b.liabilities +
        sumOf (fun l => l.account = a ∧ l.discharged = false) Liability.amount b.liabilities := by
    induction b.liabilities with
    | nil => rfl
    | cons l ls ih =>
      rw [sumOf_cons, sumOf_cons, sumOf_cons, ih]
      by_cases ha : l.account = a <;> cases l.discharged <;> simp [ha] <;> abel
  rw [Book.balance, hlines, h.incurred a, h.moved a, hliabilities]
  abel

lemma Sound.balance_nonneg (h : b.Sound) (a : α) : 0 ≤ b.balance a := by
  rw [h.balance_eq]
  exact sumOf_nonneg h.nonneg

end Book

end Splitcore.Bookkeeping
