import Mathlib.Data.List.Flatten
import Mathlib.Data.List.Nodup
import Mathlib.Data.List.Pairwise
import Mathlib.Tactic.Common

/-!
Tables with unique indexes.

A row occupies some keys, one for each unique index it is in (a null column is in none). A
table is a list of rows no two of which occupy a key together, and no row a key twice. The
constraint is a field, so a statement that would break it yields no table; it fails.
-/

namespace Splitcore.Relational

/-- The unique indexes of a type of rows. -/
class Indexed (α : Type) (κ : outParam Type) where
  keys : α → List κ
  keys_ne : ∀ r, keys r ≠ []

@[ext]
structure Table (α : Type) {κ : Type} [Indexed α κ] where
  rows : List α
  unique : (rows.flatMap Indexed.keys).Nodup

namespace Table

variable {α β κ : Type} [Indexed α κ] {t t' : Table α} {a b r : α} {k : κ} {p : α → Bool}

def empty : Table α := ⟨[], List.nodup_nil⟩

instance : Inhabited (Table α) := ⟨empty⟩

/-- `SELECT .. LIMIT 1`. -/
def find (t : Table α) (p : α → Bool) : Option α := t.rows.find? p

/-- `DELETE .. WHERE p`. -/
def delete (t : Table α) (p : α → Bool) : Table α :=
  ⟨t.rows.filter (!p ·), t.unique.sublist (List.filter_sublist.flatMap _)⟩

section Writes

variable [DecidableEq κ]

/-- The rows as a table, if they keep the unique indexes. -/
def ofRows (rows : List α) : Option (Table α) :=
  if h : (rows.flatMap Indexed.keys).Nodup then some ⟨rows, h⟩ else none

/-- `INSERT`. -/
def insert (t : Table α) (r : α) : Option (Table α) := ofRows (t.rows ++ [r])

/-- `UPDATE .. SET f WHERE p`. -/
def update (t : Table α) (p : α → Bool) (f : α → α) : Option (Table α) :=
  ofRows (t.rows.map fun r => if p r then f r else r)

lemma ofRows_eq_some {rows : List α} (h : ofRows rows = some t) : t.rows = rows := by
  unfold ofRows at h
  split at h
  · cases h; rfl
  · cases h

lemma rows_insert (h : t.insert r = some t') : t'.rows = t.rows ++ [r] := ofRows_eq_some h

lemma rows_update {f : α → α} (h : t.update p f = some t') :
    t'.rows = t.rows.map fun r => if p r then f r else r := ofRows_eq_some h

lemma update_of_none {f : α → α} (hp : ∀ r ∈ t.rows, p r = false)
    (h : t.update p f = some t') : t' = t := by
  refine Table.ext ((rows_update h).trans ?_)
  rw [List.map_congr_left fun r hr => if_neg (by simp [hp r hr]), List.map_id']

/-- An update that leaves the keys does not break the unique indexes. -/
lemma update_of_keys {f : α → α} (hkeys : ∀ r, p r = true → Indexed.keys (f r) = Indexed.keys r) :
    ∃ t', t.update p f = some t' := by
  have hsame : (t.rows.map fun r => if p r then f r else r).flatMap Indexed.keys =
      t.rows.flatMap Indexed.keys := by
    rw [List.flatMap_map]
    congr 1
    funext r
    split
    · rename_i hp
      exact hkeys r hp
    · rfl
  have hunique : ((t.rows.map fun r => if p r then f r else r).flatMap Indexed.keys).Nodup := by
    rw [hsame]
    exact t.unique
  exact ⟨⟨_, hunique⟩, dif_pos hunique⟩

/-- What an update leaves alone column by column it leaves alone altogether. -/
lemma map_update {f : α → α} {g : α → β} (hg : ∀ r, g (f r) = g r)
    (h : t.update p f = some t') : t'.rows.map g = t.rows.map g := by
  rw [rows_update h, List.map_map]
  refine List.map_congr_left fun r _ => ?_
  simp only [Function.comp]
  split
  · exact hg r
  · rfl

/-- An update that leaves what a search looks at. -/
lemma find_update {f : α → α} {q : α → Bool} (hq : ∀ r, p r = true → q (f r) = q r)
    (h : t.update p f = some t') : t'.find q = (t.find q).map fun r => if p r then f r else r := by
  have hcond : (fun r => q (if p r then f r else r)) = q := by
    funext r
    split
    · rename_i hp
      exact hq r hp
    · rfl
  rw [find, rows_update h, List.find?_map]
  exact congrArg (Option.map _) (congrArg (List.find? · t.rows) hcond)

end Writes

/-! ### Rows and their keys -/

/-- **A key belongs to one row.** -/
theorem eq_of_key (ha : a ∈ t.rows) (hb : b ∈ t.rows) (hka : k ∈ Indexed.keys a)
    (hkb : k ∈ Indexed.keys b) : a = b := by
  by_contra hab
  have hdis := (List.nodup_flatMap.mp t.unique).2
  have hsymm : Std.Symm (Function.onFun List.Disjoint (Indexed.keys : α → List κ)) :=
    ⟨fun _ _ h _ hx hy => h hy hx⟩
  exact hdis.forall ha hb hab hka hkb

lemma nodup_rows : t.rows.Nodup := by
  have hdis := (List.nodup_flatMap.mp t.unique).2
  refine hdis.imp ?_
  rintro a _ hd rfl
  obtain ⟨k, hk⟩ := List.exists_mem_of_ne_nil _ (Indexed.keys_ne a)
  exact hd hk hk

/-- The condition names a key: at most one row meets it. -/
def Names (p : α → Bool) (k : κ) : Prop := ∀ r, p r = true → k ∈ Indexed.keys r

lemma Names.eq (hp : Names p k) (ha : a ∈ t.rows) (hpa : p a = true) (hb : b ∈ t.rows)
    (hpb : p b = true) : b = a :=
  eq_of_key hb ha (hp b hpb) (hp a hpa)

lemma mem_of_find (h : t.find p = some r) : r ∈ t.rows := List.mem_of_find?_eq_some h

lemma of_find (h : t.find p = some r) : p r = true := List.find?_some h

lemma find_eq_some (hp : Names p k) : t.find p = some r ↔ r ∈ t.rows ∧ p r = true := by
  refine ⟨fun h => ⟨mem_of_find h, of_find h⟩, fun ⟨hr, hpr⟩ => ?_⟩
  obtain ⟨a, ha⟩ : ∃ a, t.rows.find? p = some a := by
    rw [← Option.isSome_iff_exists, List.find?_isSome]
    exact ⟨r, hr, hpr⟩
  rwa [hp.eq hr hpr (mem_of_find ha) (of_find ha)] at ha

lemma find_eq_none : t.find p = none ↔ ∀ r ∈ t.rows, p r = false := by
  simp [find]

/-- The rows that meet a condition that names a key. -/
lemma filter_of_names (hp : Names p k) : t.rows.filter p = (t.find p).toList := by
  rcases hfind : t.find p with _ | r
  · exact List.filter_eq_nil_iff.mpr fun r hr => by simp [find_eq_none.mp hfind r hr]
  have hmem : r ∈ t.rows.filter p := List.mem_filter.mpr ⟨mem_of_find hfind, of_find hfind⟩
  have honly : ∀ x ∈ t.rows.filter p, x = r := fun x hx =>
    hp.eq (mem_of_find hfind) (of_find hfind) (List.mem_filter.mp hx).1 (List.mem_filter.mp hx).2
  have hnodup := (nodup_rows (t := t)).filter p
  show t.rows.filter p = [r]
  rcases hrows : t.rows.filter p with _ | ⟨x, _ | ⟨y, rows⟩⟩ <;> rw [hrows] at hmem honly hnodup
  · cases hmem
  · rw [honly x (by simp)]
  · rw [honly x (by simp), honly y (by simp)] at hnodup
    simp at hnodup

/-- An inserted row's keys were free. -/
lemma insert_fresh [DecidableEq κ] (h : t.insert a = some t') (hr : r ∈ t.rows)
    (hk : k ∈ Indexed.keys r) : k ∉ Indexed.keys a := by
  intro hka
  have hrows := rows_insert h
  have hr' : r ∈ t'.rows := by rw [hrows]; exact List.mem_append_left _ hr
  have ha' : a ∈ t'.rows := by rw [hrows]; exact List.mem_append_right _ (by simp)
  obtain rfl : r = a := eq_of_key hr' ha' hk hka
  have hnodup := nodup_rows (t := t')
  rw [hrows, List.nodup_append] at hnodup
  exact hnodup.2.2 r hr r (by simp) rfl

lemma insert_of_fresh [DecidableEq κ] (hnodup : (Indexed.keys a).Nodup)
    (hfresh : ∀ r ∈ t.rows, ∀ k ∈ Indexed.keys r, k ∉ Indexed.keys a) :
    ∃ t', t.insert a = some t' := by
  have hkeys : ((t.rows ++ [a]).flatMap Indexed.keys).Nodup := by
    rw [List.flatMap_append, List.flatMap_singleton]
    refine t.unique.append hnodup fun k hk hka => ?_
    obtain ⟨r, hr, hkr⟩ := List.mem_flatMap.mp hk
    exact hfresh r hr k hkr hka
  exact ⟨⟨_, hkeys⟩, dif_pos hkeys⟩

end Table

end Splitcore.Relational
