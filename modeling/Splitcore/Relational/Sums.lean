import Splitcore.Bookkeeping.Liabilities
import Splitcore.Relational.Table

/-!
Sums over the rows of a table, before and after it is written.
-/

namespace Splitcore.Relational

open Bookkeeping

variable {α κ : Type} [Indexed α κ] [DecidableEq κ] {t t' : Table α} {guard p : α → Bool} {f : α → α}
  {g : α → ℤ} {r : α} {k : κ}

namespace Table

lemma sumOf_insert (h : t.insert r = some t') :
    sumOf p g t'.rows = sumOf p g t.rows + if p r then g r else 0 := by
  rw [rows_insert h, sumOf_append, sumOf_cons, sumOf_nil, add_zero]

/-- An update that no term of the sum notices. -/
lemma sumOf_update (hsame : ∀ r ∈ t.rows, guard r = true →
      (if p (f r) then g (f r) else 0) = if p r then g r else 0) (h : t.update guard f = some t') :
    sumOf p g t'.rows = sumOf p g t.rows := by
  rw [rows_update h, sumOf_map]
  refine sumOf_congr fun r hr => ?_
  simp only [Function.comp_apply]
  split
  · rename_i hguard
    exact hsame r hr hguard
  · rfl

/-- An update of one row exchanges its term. -/
lemma sumOf_update_one (hnamed : Names guard k) (hr : r ∈ t.rows) (hguard : guard r = true)
    (h : t.update guard f = some t') : sumOf p g t'.rows =
      sumOf p g t.rows - (if p r then g r else 0) + if p (f r) then g (f r) else 0 := by
  have honly : ∀ x ∈ t.rows, guard x = true → x = r := fun x hx hgx => hnamed.eq hr hguard hx hgx
  rw [rows_update h]
  have hnodup := nodup_rows (t := t)
  generalize t.rows = rows at hr honly hnodup
  induction rows with
  | nil => cases hr
  | cons x rows ih =>
    rw [List.nodup_cons] at hnodup
    rw [List.map_cons, sumOf_cons, sumOf_cons]
    by_cases hx : x = r
    · subst hx
      -- the others do not meet the condition
      have hrest : (rows.map fun y => if guard y then f y else y) = rows := by
        refine (List.map_congr_left fun y hy => if_neg fun hgy => hnodup.1 ?_).trans (List.map_id' _)
        rwa [← honly y (List.mem_cons_of_mem _ hy) hgy]
      rw [hrest, if_pos hguard]
      abel
    · have hgx : ¬ guard x = true := fun hgx => hx (honly x (by simp) hgx)
      rw [if_neg hgx, ih ((List.mem_cons.mp hr).resolve_left (Ne.symm hx))
        (fun y hy => honly y (List.mem_cons_of_mem _ hy)) hnodup.2]
      abel

end Table

end Splitcore.Relational
