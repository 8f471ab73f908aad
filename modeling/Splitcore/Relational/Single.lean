import Splitcore.Relational.Table

/-!
Updates of one row: the condition names a key, and a row meets it.
-/

namespace Splitcore.Relational.Table

variable {α κ : Type} [Indexed α κ] [DecidableEq κ] {t t' : Table α} {p : α → Bool} {f : α → α} {q r : α} {k : κ}

/-- The row is there as the update leaves it. -/
lemma mem_update_self (hr : r ∈ t.rows) (hp : p r = true) (h : t.update p f = some t') : f r ∈ t'.rows := by
  rw [rows_update h]
  exact List.mem_map.mpr ⟨r, hr, if_pos hp⟩

omit [DecidableEq κ] in
/-- One row is updated. -/
lemma countP_names (hp : Names p k) (hr : r ∈ t.rows) (hpr : p r = true) : t.rows.countP p = 1 := by
  rw [List.countP_eq_length_filter, filter_of_names hp, (find_eq_some hp).mpr ⟨hr, hpr⟩]
  rfl

/-- **The update of one row keeps the unique indexes** when no other row has its new keys. -/
theorem update_of_fresh (hp : Names p k) (hr : r ∈ t.rows) (hpr : p r = true)
    (hnodup : (Indexed.keys (f r)).Nodup)
    (hfresh : ∀ q ∈ t.rows, p q = false → List.Disjoint (Indexed.keys (f r)) (Indexed.keys q)) :
    ∃ t', t.update p f = some t' := by
  have honly : ∀ q ∈ t.rows, p q = true → q = r := fun q hq hpq => hp.eq hr hpr hq hpq
  have hunique : ((t.rows.map fun r => if p r then f r else r).flatMap Indexed.keys).Nodup := by
    rw [List.flatMap_map, List.nodup_flatMap]
    obtain ⟨hrows, hdisjoint⟩ := List.nodup_flatMap.mp t.unique
    refine ⟨fun q hq => ?_, ?_⟩
    · split
      · rename_i hpq
        rw [honly q hq hpq]
        exact hnodup
      · exact hrows q hq
    · refine (hdisjoint.and (nodup_rows (t := t))).imp_of_mem fun {a b} ha hb hab => ?_
      simp only [Function.onFun]
      by_cases hpa : p a = true <;> by_cases hpb : p b = true
      · exact absurd ((honly a ha hpa).trans (honly b hb hpb).symm) hab.2
      · rw [if_pos hpa, if_neg hpb, honly a ha hpa]
        exact hfresh b hb (by simpa using hpb)
      · rw [if_neg hpa, if_pos hpb, honly b hb hpb]
        exact fun _ hx hy => hfresh a ha (by simpa using hpa) hy hx
      · rw [if_neg hpa, if_neg hpb]
        exact hab.1
  exact ⟨⟨_, hunique⟩, dif_pos hunique⟩

end Splitcore.Relational.Table
