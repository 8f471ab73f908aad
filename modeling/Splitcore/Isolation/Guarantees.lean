import Splitcore.Isolation.Sessions

/-!
What read-committed transactions can rely on, and what their commits guarantee.

A transaction's own writes are over the versions that are still committed when it commits: the
row locks see to that. What it read earlier may have moved on, but only as commits move the
store. A call is checked on its tree, against whatever the others may have committed in between.
-/

namespace Splitcore.Isolation

open Relational

variable {σ : Schema} {α β L : Type} {s s' v v' : Store σ} {k : Work σ} {id : σ.Id} {r : σ.Row}

/-! ### Rows by their id -/

lemma names_id (id : σ.Id) : Table.Names (fun r : σ.Row => σ.id r == id) (σ.idKey id) :=
  fun r hr => by
    have : σ.id r = id := eq_of_beq hr
    exact this ▸ σ.idKey_mem r

lemma row_eq_some : s.row id = some r ↔ r ∈ s.table.rows ∧ σ.id r = id := by
  rw [Store.row, Table.find_eq_some (names_id id), beq_iff_eq]

lemma row_of_mem (h : r ∈ s.table.rows) : s.row (σ.id r) = some r := row_eq_some.mpr ⟨h, rfl⟩

lemma row_unique {t : Table σ.Row} {r' : σ.Row} (hr : r ∈ t.rows) (hr' : r' ∈ t.rows) (h : σ.id r = σ.id r') :
    r = r' := by
  refine Table.eq_of_key hr hr' (σ.idKey_mem r) ?_
  rw [h]
  exact σ.idKey_mem r'

lemma nodup_ids (t : Table σ.Row) (cond : σ.Row → Bool) : ((t.rows.filter cond).map σ.id).Nodup :=
  List.Nodup.map_on (fun _ ha _ hb => row_unique (List.mem_of_mem_filter ha) (List.mem_of_mem_filter hb))
    (Table.nodup_rows.filter _)

section Apply

variable {t t' : Table σ.Row} {w : Write σ}

/-- A write is found under its id; the other rows are as they were. -/
lemma find_apply (h : w.apply t = some t')
    (hheld : ∀ r, w.before = some r → t.find (σ.id · == σ.id w.after) ≠ none) (id : σ.Id) :
    t'.find (σ.id · == id) = if id = σ.id w.after then some w.after else t.find (σ.id · == id) := by
  unfold Write.apply at h
  rcases hb : w.before with _ | r <;> rw [hb] at h
  · rw [Table.find, Table.rows_insert h, List.find?_append]
    by_cases hid : id = σ.id w.after
    · subst hid
      have hfree : t.rows.find? (σ.id · == σ.id w.after) = none := by
        rw [List.find?_eq_none]
        intro r hr hrid
        refine Table.insert_fresh h hr (σ.idKey_mem r) ?_
        rw [eq_of_beq hrid]
        exact σ.idKey_mem _
      simp [hfree]
    · have hne : ¬ σ.id w.after = id := fun heq => hid heq.symm
      simp [hid, hne, Table.find]
  · rw [Table.find_update (fun r hr => by rw [eq_of_beq hr]) h]
    by_cases hid : id = σ.id w.after
    · obtain ⟨r', hr'⟩ := Option.ne_none_iff_exists'.mp (hheld r hb)
      rw [if_pos hid, hid, hr', Option.map_some, if_pos (Table.of_find (p := (σ.id · == _)) hr')]
    · rw [if_neg hid]
      rcases hr : t.find (σ.id · == id) with _ | r'
      · rfl
      · have hrid : σ.id r' = id := eq_of_beq (Table.of_find (p := (σ.id · == id)) hr)
        rw [Option.map_some, if_neg (by simpa [hrid] using hid)]

/-- A created row was not there. -/
lemma find_apply_create (h : w.apply t = some t') (hb : w.before = none) :
    t.find (σ.id · == σ.id w.after) = none := by
  rw [Write.apply, hb] at h
  rw [Table.find_eq_none]
  intro r hr
  by_contra hid
  refine Table.insert_fresh h hr (σ.idKey_mem r) ?_
  rw [show σ.id r = σ.id w.after by simpa using hid]
  exact σ.idKey_mem _

end Apply

/-! ### Own writes -/

/-- Every row is written once, over the version that is committed. -/
structure Held (k : Work σ) (s : Store σ) : Prop where
  once : (k.writes.map fun w => σ.id w.after).Nodup
  current : ∀ w ∈ k.writes, ∀ r, w.before = some r → s.row (σ.id w.after) = some r

/-- What a statement of a transaction that did `k` sees. -/
structure Sees (k : Work σ) (s v : Store σ) : Prop where
  held : Held k s
  view : k.view s = some v

/-- The version a transaction wrote. -/
def Work.wrote (k : Work σ) (id : σ.Id) : Option (Write σ) :=
  k.writes.find? (σ.id ·.after == id)

lemma wrote_eq_none : k.wrote id = none ↔ ∀ w ∈ k.writes, σ.id w.after ≠ id := by
  simp [Work.wrote]

lemma wrote_of_mem (hk : (k.writes.map fun w => σ.id w.after).Nodup) {w : Write σ}
    (hw : w ∈ k.writes) : k.wrote (σ.id w.after) = some w := by
  rw [Work.wrote, List.find?_eq_some_iff_append]
  obtain ⟨as, bs, heq⟩ := List.append_of_mem hw
  refine ⟨by simp, as, bs, heq, fun a ha => ?_⟩
  rw [heq, List.map_append, List.map_cons, List.nodup_append] at hk
  have := hk.2.2 _ (List.mem_map_of_mem ha) (σ.id w.after) (by simp)
  simpa using this

lemma foldlM_find {ws : List (Write σ)} {t t' : Table σ.Row}
    (honce : (ws.map fun w => σ.id w.after).Nodup)
    (hcur : ∀ w ∈ ws, ∀ r, w.before = some r → t.find (σ.id · == σ.id w.after) ≠ none)
    (h : ws.foldlM Write.apply t = some t') (id : σ.Id) :
    t'.find (σ.id · == id) = match ws.find? (σ.id ·.after == id) with
      | some w => some w.after
      | none => t.find (σ.id · == id) := by
  induction ws generalizing t with
  | nil =>
    cases h
    rfl
  | cons w ws ih =>
    simp only [List.foldlM_cons, Option.bind_eq_bind, Option.bind_eq_some_iff] at h
    obtain ⟨t₁, ht₁, h⟩ := h
    rw [List.map_cons, List.nodup_cons] at honce
    have hfind := find_apply ht₁ (hcur w (by simp))
    have hne : ∀ w' ∈ ws, σ.id w'.after ≠ σ.id w.after := fun w' hw' heq =>
      honce.1 (heq ▸ List.mem_map_of_mem (f := fun w => σ.id w.after) hw')
    have hcur' : ∀ w' ∈ ws, ∀ r, w'.before = some r →
        t₁.find (σ.id · == σ.id w'.after) ≠ none := by
      intro w' hw' r hr
      rw [hfind, if_neg (hne w' hw')]
      exact hcur w' (List.mem_cons_of_mem _ hw') r hr
    rw [ih honce.2 hcur' h, List.find?_cons]
    by_cases hid : σ.id w.after = id
    · have hnone : ws.find? (σ.id ·.after == id) = none := by
        rw [List.find?_eq_none]
        intro w' hw'
        simpa [← hid] using hne w' hw'
      rw [hnone]
      simp [hid, hfind]
    · have hid' : ¬ id = σ.id w.after := fun heq => hid heq.symm
      rw [show (σ.id w.after == id) = false by simpa using hid, hfind, if_neg hid']

lemma Sees.rest (h : Sees k s v) : v.rest = s.rest ∧ v.notes = s.notes ++ k.notes := by
  obtain ⟨t, -, rfl⟩ := Option.map_eq_some_iff.mp h.view
  exact ⟨rfl, rfl⟩

/-- **What a transaction sees of a row**: its own version, or the committed one. -/
theorem Sees.row (h : Sees k s v) (id : σ.Id) :
    v.row id = match k.wrote id with | some w => some w.after | none => s.row id := by
  obtain ⟨t, ht, rfl⟩ := Option.map_eq_some_iff.mp h.view
  refine foldlM_find h.held.once (fun w hw r hr => ?_) ht id
  rw [show s.table.find _ = _ from h.held.current w hw r hr]
  nofun

lemma Sees.row_of_mem (h : Sees k s v) {w : Write σ} (hw : w ∈ k.writes) :
    v.row (σ.id w.after) = some w.after := by
  rw [h.row, wrote_of_mem h.held.once hw]

/-- What no write changes of a row stays, in the order of the table. -/
lemma foldlM_unchanged {γ : Type} {f : σ.Row → γ} {ws : List (Write σ)} {t t' : Table σ.Row}
    (honce : (ws.map fun w => σ.id w.after).Nodup)
    (hkeeps : ∀ w ∈ ws, w.before ≠ none → ∀ r ∈ t.rows, σ.id r = σ.id w.after → f w.after = f r)
    (h : ws.foldlM Write.apply t = some t') : t.rows.map f <+: t'.rows.map f := by
  induction ws generalizing t with
  | nil => cases h; exact List.prefix_rfl
  | cons w ws ih =>
    simp only [List.foldlM_cons, Option.bind_eq_bind, Option.bind_eq_some_iff] at h
    obtain ⟨t₁, ht₁, h⟩ := h
    rw [List.map_cons, List.nodup_cons] at honce
    have hrest : ∀ w' ∈ ws, σ.id w.after ≠ σ.id w'.after := fun w' hw' heq =>
      honce.1 (heq ▸ List.mem_map_of_mem (f := fun w => σ.id w.after) hw')
    -- the other writes meet the rows that were there, not this one
    have hothers : (∀ r ∈ t₁.rows, r = w.after ∨ r ∈ t.rows) → t₁.rows.map f <+: t'.rows.map f := by
      intro hfrom
      refine ih honce.2 (fun w' hw' hb r hr hid => ?_) h
      rcases hfrom r hr with rfl | hold
      · exact absurd hid (hrest w' hw')
      · exact hkeeps w' (List.mem_cons_of_mem _ hw') hb r hold hid
    unfold Write.apply at ht₁
    rcases hb : w.before with _ | r <;> rw [hb] at ht₁
    · have hrows := Table.rows_insert ht₁
      refine List.IsPrefix.trans ?_ (hothers fun r hr => ?_)
      · rw [hrows, List.map_append]; exact List.prefix_append _ _
      · rw [hrows, List.mem_append, List.mem_singleton] at hr
        exact hr.symm
    · have hrows := Table.rows_update ht₁
      have hmap : t₁.rows.map f = t.rows.map f := by
        rw [hrows, List.map_map]
        refine List.map_congr_left fun row hrow => ?_
        simp only [Function.comp_apply]
        split
        · rename_i hid
          exact hkeeps w (by simp) (by simp [hb]) row hrow (eq_of_beq hid)
        · rfl
      rw [← hmap]
      refine hothers fun r hr => ?_
      rw [hrows, List.mem_map] at hr
      obtain ⟨row, hrow, rfl⟩ := hr
      split
      · exact .inl rfl
      · exact .inr hrow

lemma Sees.unchanged {γ : Type} {f : σ.Row → γ} (h : Sees k s v)
    (hkeeps : ∀ w ∈ k.writes, ∀ r, w.before = some r → f w.after = f r) :
    s.table.rows.map f <+: v.table.rows.map f := by
  obtain ⟨t, ht, rfl⟩ := Option.map_eq_some_iff.mp h.view
  refine foldlM_unchanged h.held.once (fun w hw hb r hr hid => ?_) ht
  obtain ⟨r₀, hr₀⟩ := Option.ne_none_iff_exists'.mp hb
  have hcurrent := h.held.current w hw r₀ hr₀
  rw [← hid, Isolation.row_of_mem hr, Option.some.injEq] at hcurrent
  rw [hkeeps w hw r₀ hr₀, hcurrent]

/-- A created row is new. -/
lemma Sees.created (h : Sees k s v) {w : Write σ} (hw : w ∈ k.writes) (hb : w.before = none) :
    s.row (σ.id w.after) = none := by
  obtain ⟨t, ht, rfl⟩ := Option.map_eq_some_iff.mp h.view
  obtain ⟨as, bs, heq⟩ := List.append_of_mem hw
  rw [heq, List.foldlM_append, Option.bind_eq_bind, Option.bind_eq_some_iff] at ht
  obtain ⟨t₁, ht₁, ht⟩ := ht
  simp only [List.foldlM_cons, Option.bind_eq_bind, Option.bind_eq_some_iff] at ht
  obtain ⟨t₂, ht₂, -⟩ := ht
  have honce := h.held.once
  rw [heq, List.map_append, List.nodup_append] at honce
  have hfind := foldlM_find honce.1 (fun w' hw' r hr => by
    rw [show s.table.find _ = _ from h.held.current w' (by simp [heq, hw']) r hr]; nofun) ht₁
    (σ.id w.after)
  have hnone : as.find? (σ.id ·.after == σ.id w.after) = none := by
    rw [List.find?_eq_none]
    intro w' hw'
    simpa using honce.2.2 _ (List.mem_map_of_mem hw') (σ.id w.after) (by simp)
  rw [hnone, find_apply_create ht₂ hb] at hfind
  exact hfind.symm

/-! ### One more write -/

lemma mem_record {ws : List (Write σ)} {w w' : Write σ} (h : w' ∈ record ws w) :
    (w' ∈ ws ∧ σ.id w'.after ≠ σ.id w.after) ∨
    (∃ w₀ ∈ ws, σ.id w₀.after = σ.id w.after ∧ w' = { w₀ with after := w.after }) ∨
    w' = w ∧ ∀ w₀ ∈ ws, σ.id w₀.after ≠ σ.id w.after := by
  unfold record at h
  split at h
  · obtain ⟨w₀, hw₀, rfl⟩ := List.mem_map.mp h
    by_cases hid : σ.id w₀.after = σ.id w.after
    · exact .inr (.inl ⟨w₀, hw₀, hid, by simp [hid]⟩)
    · exact .inl ⟨by simpa [hid] using hw₀, by simp [hid]⟩
  · rename_i hany
    have hnew : ∀ w₀ ∈ ws, σ.id w₀.after ≠ σ.id w.after := by simpa using hany
    rcases List.mem_append.mp h with hw' | hw'
    · exact .inl ⟨hw', hnew w' hw'⟩
    · exact .inr (.inr ⟨List.mem_singleton.mp hw', hnew⟩)

lemma record_once {ws : List (Write σ)} {w : Write σ}
    (h : (ws.map fun w => σ.id w.after).Nodup) :
    ((record ws w).map fun w => σ.id w.after).Nodup := by
  unfold record
  split
  · rw [List.map_map]
    convert h using 2
    funext w₀
    by_cases hid : σ.id w₀.after = σ.id w.after <;> simp [hid]
  · rename_i hany
    rw [List.map_append]
    refine h.append (List.nodup_singleton _) fun id hid hid' => ?_
    obtain ⟨w₀, hw₀, rfl⟩ := List.mem_map.mp hid
    simp only [List.map_cons, List.map_nil, List.mem_singleton] at hid'
    exact hany (List.any_eq_true.mpr ⟨w₀, hw₀, by simpa using hid'⟩)

/-- A new version is over what the transaction sees of the row. -/
def Over (w : Write σ) (v : Store σ) : Prop :=
  ∀ r, w.before = some r → v.row (σ.id w.after) = some r

lemma Sees.held_record (h : Sees k s v) {w : Write σ} (hw : Over w v) :
    Held { k with writes := record k.writes w } s := by
  refine ⟨record_once h.held.once, fun w' hw' r hr => ?_⟩
  rcases mem_record hw' with ⟨hold, -⟩ | ⟨w₀, hw₀, hid, rfl⟩ | ⟨rfl, hnew⟩
  · exact h.held.current w' hold r hr
  · rw [← hid]; exact h.held.current w₀ hw₀ r hr
  · have hrow := h.row (σ.id w'.after)
    rw [wrote_eq_none.mpr hnew, hw r hr] at hrow
    exact hrow.symm

lemma holds_record {w : Write σ} (h : ({ k with writes := record k.writes w } : Work σ).holds id = true) :
    k.holds id = true ∨ w.before.isSome = true ∧ σ.id w.after = id := by
  simp only [Work.holds, List.any_eq_true, Bool.and_eq_true, beq_iff_eq] at h ⊢
  obtain ⟨w', hw', hsome, hid⟩ := h
  rcases mem_record hw' with ⟨hold, -⟩ | ⟨w₀, hw₀, hid₀, rfl⟩ | ⟨rfl, -⟩
  · exact .inl ⟨w', hold, hsome, hid⟩
  · exact .inl ⟨w₀, hw₀, hsome, hid₀.trans hid⟩
  · exact .inr ⟨hsome, hid⟩

/-! ### Calls that keep a discipline -/

/-- What holds of every committed state, how a later one is related to an earlier one, and what a
transaction that commits has done. -/
structure Discipline (σ : Schema) (L : Type) where
  Inv : Store σ → Prop
  Later : Store σ → Store σ → Prop
  Does : L → Work σ → Prop
  refl : ∀ s, Later s s
  trans : ∀ {s s' s''}, Later s s' → Later s' s'' → Later s s''
  commit : ∀ {l k s v}, Inv s → Sees k s v → Does l k → Inv v ∧ Later s v
  others : ∀ {s} r, Inv s → Inv { s with rest := r } ∧ Later s { s with rest := r }

variable (D : Discipline σ L)

/-- Whatever the others commit in between, from this state on and with this much done: every
version is a new one of the same row, and `Q` holds at the end. -/
def Obeys (Q : Store σ → Work σ → α → Prop) : Call σ α → Store σ → Work σ → Prop
  | .ret a, s, k => Q s k a
  | .raise _, _, _ => True
  | .read nm f, s, k => ∀ w s' v, D.Later s s' → D.Inv s' → Sees k s' v →
      Obeys Q (f w v) s' { k with reads := k.reads ++ [(nm, v)] }
  | .create row f, s, k => ∀ w s' v, D.Later s s' → D.Inv s' → Sees k s' v →
      v.row (σ.id (row w)) = none →
      Obeys Q (f (row w)) s' { k with writes := record k.writes ⟨none, row w⟩ }
  | .update id cond g f, s, k => ∀ s' v, D.Later s s' → D.Inv s' → Sees k s' v →
      (∀ r, v.row id = some r → cond r = true → σ.id (g r) = σ.id r ∧
        Obeys Q (f (some (g r))) s' { k with writes := record k.writes ⟨some r, g r⟩ }) ∧
      ((∀ r, v.row id = some r → cond r = false) → Obeys Q (f none) s' k)
  | .note n f, s, k => ∀ w, Obeys Q f s { k with notes := k.notes ++ [n w] }

variable {D}

lemma Obeys.mono {Q R : Store σ → Work σ → α → Prop} {c : Call σ α} (h : Obeys D Q c s k)
    (hQ : ∀ s k a, Q s k a → R s k a) : Obeys D R c s k := by
  induction c generalizing s k with
  | ret a => exact hQ _ _ _ h
  | raise e => trivial
  | read nm f ih => exact fun w s' v hl hi hv => ih w v (h w s' v hl hi hv)
  | create row f ih => exact fun w s' v hl hi hv hnew => ih _ (h w s' v hl hi hv hnew)
  | update id cond g f ih =>
    intro s' v hl hi hv
    obtain ⟨hsome, hnone⟩ := h s' v hl hi hv
    exact ⟨fun r hr hc => ⟨(hsome r hr hc).1, ih _ (hsome r hr hc).2⟩, fun hc => ih _ (hnone hc)⟩
  | note n f ih => exact fun w => ih (h w)

lemma obeys_bind {Q : Store σ → Work σ → β → Prop} {c : Call σ α} {f : α → Call σ β} :
    Obeys D Q (c.bind f) s k ↔ Obeys D (fun s k a => Obeys D Q (f a) s k) c s k := by
  induction c generalizing s k with
  | ret a => exact Iff.rfl
  | raise e => exact Iff.rfl
  | read nm f ih => simp only [Call.bind, Obeys, ih]
  | create row f ih => simp only [Call.bind, Obeys, ih]
  | update id cond g f ih => simp only [Call.bind, Obeys, ih]
  | note n f ih => simp only [Call.bind, Obeys, ih]

/-! ### One statement, and the rest of the call -/

section Rules

variable {Q : Store σ → Work σ → β → Prop}

lemma obeys_query {nm : σ.Name} {f : σ.Input → Store σ → α} {g : α → Call σ β}
    (h : ∀ w s' v, D.Later s s' → D.Inv s' → Sees k s' v →
      Obeys D Q (g (f w v)) s' { k with reads := k.reads ++ [(nm, v)] }) :
    Obeys D Q ((Call.query nm f).bind g) s k := h

lemma obeys_insert {row : σ.Input → σ.Row} {g : σ.Row → Call σ β}
    (h : ∀ w s' v, D.Later s s' → D.Inv s' → Sees k s' v → v.row (σ.id (row w)) = none →
      Obeys D Q (g (row w)) s' { k with writes := record k.writes ⟨none, row w⟩ }) :
    Obeys D Q ((Call.insert row).bind g) s k := h

lemma obeys_update {cond : σ.Row → Bool} {f : σ.Row → σ.Row} {g : Option σ.Row → Call σ β}
    (hsome : ∀ s' v r, D.Later s s' → D.Inv s' → Sees k s' v → v.row id = some r → cond r = true →
      σ.id (f r) = σ.id r ∧
        Obeys D Q (g (some (f r))) s' { k with writes := record k.writes ⟨some r, f r⟩ })
    (hnone : ∀ s', D.Later s s' → Obeys D Q (g none) s' k) :
    Obeys D Q ((Call.update id cond f .ret).bind g) s k :=
  fun s' v hlater hinv hsees =>
    ⟨fun r => hsome s' v r hlater hinv hsees, fun _ => hnone s' hlater⟩

lemma obeys_note {n : σ.Input → σ.Note} {g : Unit → Call σ β}
    (h : ∀ w, Obeys D Q (g ()) s { k with notes := k.notes ++ [n w] }) :
    Obeys D Q ((Call.note n (.ret ())).bind g) s k := h

end Rules

/-! ### Rows not written before -/

lemma record_of_new {ws : List (Write σ)} {w : Write σ}
    (h : ∀ w₀ ∈ ws, σ.id w₀.after ≠ σ.id w.after) : record ws w = ws ++ [w] :=
  if_neg (by simpa using h)

lemma wrote_append {ws vs : List (Write σ)} (h : k.writes = ws ++ vs) :
    k.wrote id = none ↔ (∀ w ∈ ws, σ.id w.after ≠ id) ∧ ∀ w ∈ vs, σ.id w.after ≠ id := by
  rw [wrote_eq_none, h]
  constructor
  · intro hall
    exact ⟨fun w hw => hall w (by simp [hw]), fun w hw => hall w (by simp [hw])⟩
  · rintro ⟨hws, hvs⟩ w hw
    rcases List.mem_append.mp hw with hw | hw
    · exact hws w hw
    · exact hvs w hw

/-- A row that is not there was not written. -/
lemma Sees.wrote_none (h : Sees k s v) (hrow : v.row id = none) : k.wrote id = none := by
  rw [h.row] at hrow
  split at hrow
  · cases hrow
  · assumption

/-- The versions `f` makes of rows. -/
def versions (f : σ.Row → σ.Row) (rows : List σ.Row) : List (Write σ) :=
  rows.map fun r => ⟨some r, f r⟩

lemma mem_versions {f : σ.Row → σ.Row} {rows : List σ.Row} {w : Write σ} :
    w ∈ versions f rows ↔ ∃ r ∈ rows, w = ⟨some r, f r⟩ := by
  simp [versions, eq_comm]

/-- **An update of several rows** makes a version of each that still meets the condition when its
turn comes. -/
theorem obeys_updateEach {cond : σ.Row → Bool} {f : σ.Row → σ.Row}
    (hf : ∀ r, σ.id (f r) = σ.id r) {ids : List σ.Id} (hids : ids.Nodup)
    (hnew : ∀ id ∈ ids, k.wrote id = none) :
    Obeys D (fun s' k' _ => D.Later s s' ∧ k'.reads = k.reads ∧ k'.notes = k.notes ∧
      ∃ rows, (∀ r ∈ rows, cond r = true) ∧ k'.writes = k.writes ++ versions f rows ∧
        ∀ id ∈ ids, id ∈ rows.map σ.id ∨
          ∃ s₁, D.Later s s₁ ∧ D.Later s₁ s' ∧ ∀ r, s₁.row id = some r → cond r = false)
      (Call.updateEach cond f ids) s k := by
  induction ids generalizing s k with
  | nil => exact ⟨D.refl _, rfl, rfl, [], nofun, by simp [versions], nofun⟩
  | cons id ids ih =>
    rw [List.nodup_cons] at hids
    intro s' v hlater hinv hsees
    have hid : k.wrote id = none := hnew id (by simp)
    -- what the other rows found when their turn came, they found later than this state
    have hothers : ∀ {s'' : Store σ} {rows : List σ.Row}, (∀ id' ∈ ids, id' ∈ rows.map σ.id ∨
        ∃ s₁, D.Later s' s₁ ∧ D.Later s₁ s'' ∧ ∀ r, s₁.row id' = some r → cond r = false) →
        ∀ id' ∈ ids, id' ∈ rows.map σ.id ∨
          ∃ s₁, D.Later s s₁ ∧ D.Later s₁ s'' ∧ ∀ r, s₁.row id' = some r → cond r = false :=
      fun hall id' hid' => (hall id' hid').imp_right fun ⟨s₁, h₁, h₂, hrow⟩ =>
        ⟨s₁, D.trans hlater h₁, h₂, hrow⟩
    refine ⟨fun r hr hcond => ⟨hf r, obeys_bind.mpr ?_⟩, fun hnone => obeys_bind.mpr ?_⟩
    · have hrid : σ.id r = id := (row_eq_some.mp hr).2
      have hrecord : record k.writes ⟨some r, f r⟩ = k.writes ++ [⟨some r, f r⟩] :=
        record_of_new fun w hw => by
          rw [hf, hrid]
          exact wrote_eq_none.mp hid w hw
      rw [hrecord]
      refine (ih hids.2 fun id' hid' => ?_).mono ?_
      · refine (wrote_append rfl).mpr ⟨wrote_eq_none.mp (hnew id' (by simp [hid'])), fun w hw => ?_⟩
        rw [List.mem_singleton.mp hw]
        show σ.id (f r) ≠ id'
        rw [hf, hrid]
        rintro rfl
        exact hids.1 hid'
      · rintro s'' k' n ⟨hlater', hreads, hnotes, rows, hrows, hwrites, hall⟩
        refine ⟨D.trans hlater hlater', hreads, hnotes, r :: rows,
          List.forall_mem_cons.mpr ⟨hcond, hrows⟩, ?_, List.forall_mem_cons.mpr ⟨?_, fun id' hid' => ?_⟩⟩
        · rw [hwrites]; simp [versions]
        · rw [List.map_cons, hrid]
          exact .inl (by simp)
        · refine (hothers hall id' hid').imp_left fun hmem => ?_
          rw [List.map_cons]
          exact List.mem_cons_of_mem _ hmem
    · refine (ih hids.2 fun id' hid' => hnew id' (by simp [hid'])).mono ?_
      rintro s'' k' n ⟨hlater', hreads, hnotes, rows, hrows, hwrites, hall⟩
      refine ⟨D.trans hlater hlater', hreads, hnotes, rows, hrows, hwrites,
        List.forall_mem_cons.mpr ⟨.inr ⟨s', hlater, hlater', fun r hr => hnone r ?_⟩, hothers hall⟩⟩
      rw [hsees.row, hid]
      exact hr

/-! ### Sessions that keep it -/

/-- An open session obeys from a state that the committed one is later than, holds what it wrote,
and shares no row with another. What committed had done what it should. -/
structure Steady (D : Discipline σ L) (p : Pool σ L) : Prop where
  inv : D.Inv p.store
  obeys : ∀ i c, p.running i = some c → ∃ s, D.Later s p.store ∧
    Obeys D (fun _ k _ => D.Does c.label k) c.call s c.work
  held : ∀ i c, p.running i = some c → Held c.work p.store
  apart : ∀ i j c d id, p.running i = some c → p.running j = some d → c.work.holds id = true →
    d.work.holds id = true → i = j
  done : ∀ c ∈ p.sessions, c.phase = .committed → D.Does c.label c.work

section Step

variable {p p' : Pool σ L} {c c' d : Session σ L} {i j : ℕ} {w : σ.Input}

lemma running_eq_some : p.running i = some c ↔ p.sessions[i]? = some c ∧ c.phase = .running := by
  simp [Pool.running, Option.filter_eq_some_iff]

lemma running_put (h : p.running i = some c) (c' : Session σ L) (j : ℕ) :
    (p.put i c').running j =
      if j = i then (some c').filter (·.phase == .running) else p.running j := by
  have hi : i < p.sessions.length := (List.getElem?_eq_some_iff.mp (running_eq_some.mp h).1).1
  unfold Pool.running Pool.put
  simp only [List.getElem?_set]
  by_cases hj : j = i
  · subst hj; simp [hi]
  · simp [hj, Ne.symm hj]

lemma not_locked {id : σ.Id} (h : p.locked i id = false) (hj : p.running j = some d) (hij : j ≠ i) :
    d.work.holds id = false := by
  have hlt : j < p.sessions.length := (List.getElem?_eq_some_iff.mp (running_eq_some.mp hj).1).1
  simp only [Pool.locked, List.any_eq_false, List.mem_range, Bool.and_eq_true, bne_iff_ne] at h
  have := h j hlt
  simpa [hij, hj] using this

/-! ### What each event does, spelled out -/

lemma step_exec {entry : L → Call σ Unit} (h : step entry p (.exec i w) = some p') :
    ∃ c v, p.running i = some c ∧ c.work.view p.store = some v ∧ c.waits p i v = false ∧
      p' = if (c.next w v).phase = .committed then { p.put i (c.next w v) with store := v }
        else p.put i (c.next w v) := by
  simp only [step, Option.bind_eq_some_iff] at h
  obtain ⟨c, hc, v, hv, h⟩ := h
  split at h
  · cases h
  · rename_i hwaits
    exact ⟨c, v, hc, hv, by simpa using hwaits, (Option.some.inj h).symm⟩

lemma step_rollback {entry : L → Call σ Unit} (h : step entry p (.rollback i) = some p') :
    ∃ c, p.running i = some c ∧ p' = p.put i { c with phase := .rolledBack } := by
  simp only [step, Option.map_eq_some_iff] at h
  obtain ⟨c, hc, rfl⟩ := h
  exact ⟨c, hc, rfl⟩

/-- A session that goes on as it should. -/
structure Goes (D : Discipline σ L) (p : Pool σ L) (i : ℕ) (c : Session σ L) : Prop where
  obeys : ∃ s, D.Later s p.store ∧ Obeys D (fun _ k _ => D.Does c.label k) c.call s c.work
  held : Held c.work p.store
  apart : ∀ j d id, j ≠ i → p.running j = some d → c.work.holds id = true →
    d.work.holds id = false

lemma Steady.goes (h : Steady D p) (hc : p.running i = some c) : Goes D p i c :=
  ⟨h.obeys i c hc, h.held i c hc, fun j d id hij hd hid => by
    by_contra hheld
    exact hij (h.apart i j c d id hc hd hid (by simpa using hheld)).symm⟩

/-- What becomes of a session that did its next statement. -/
lemma Steady.next (h : Steady D p) (hc : p.running i = some c) {v : Store σ}
    (hv : c.work.view p.store = some v) (hwaits : c.waits p i v = false) :
    (c.next w v).label = c.label ∧ match (c.next w v).phase with
      | .running => Goes D p i (c.next w v)
      | .committed => (c.next w v).work = c.work ∧ D.Does c.label c.work
      | .rolledBack => True := by
  have hphase : c.phase = .running := (running_eq_some.mp hc).2
  obtain ⟨s, hlater, hobeys⟩ := h.obeys i c hc
  have hgoes := h.goes hc
  have hsees : Sees c.work p.store v := ⟨hgoes.held, hv⟩
  -- a row written: it was locked already, or was nobody else's
  have hwrote : ∀ (w : Write σ) (f : Call σ Unit), Over w v →
      (w.before.isSome = true → p.locked i (σ.id w.after) = false) →
      ((w.apply v.table).isSome = true → Obeys D (fun _ k _ => D.Does c.label k) f p.store
        { c.work with writes := record c.work.writes w }) →
      (c.wrote v w f).label = c.label ∧ match (c.wrote v w f).phase with
        | .running => Goes D p i (c.wrote v w f)
        | .committed => (c.wrote v w f).work = c.work ∧ D.Does c.label c.work
        | .rolledBack => True := by
    intro w f hover hfree hobeys'
    unfold Session.wrote
    split
    · rename_i happly
      simp only [hphase, true_and]
      refine ⟨⟨p.store, D.refl _, hobeys' happly⟩, hsees.held_record hover, fun j d id hij hd hid => ?_⟩
      rcases holds_record hid with hold | ⟨hsome, rfl⟩
      · exact hgoes.apart j d id hij hd hold
      · exact not_locked (hfree hsome) hd hij
    · exact ⟨rfl, trivial⟩
  unfold Session.next
  cases hcall : c.call with
  | ret a =>
    rw [hcall] at hobeys
    exact ⟨rfl, rfl, hobeys⟩
  | raise e => exact ⟨rfl, trivial⟩
  | read nm f =>
    rw [hcall] at hobeys
    simp only [hphase, true_and]
    exact ⟨⟨p.store, D.refl _, hobeys w p.store v hlater h.inv hsees⟩, ⟨hgoes.held.1, hgoes.held.2⟩,
      hgoes.apart⟩
  | create row f =>
    rw [hcall] at hobeys
    refine hwrote ⟨none, row w⟩ (f (row w)) nofun nofun fun happly => ?_
    obtain ⟨t, ht⟩ := Option.isSome_iff_exists.mp happly
    exact hobeys w p.store v hlater h.inv hsees (find_apply_create ht rfl)
  | update id cond g f =>
    rw [hcall] at hobeys
    obtain ⟨hsome, hnone⟩ := hobeys p.store v hlater h.inv hsees
    simp only
    cases hrow : (v.row id).filter cond with
    | none =>
      simp only [hphase, true_and]
      refine ⟨⟨p.store, D.refl _, hnone fun r hr => ?_⟩, hgoes.held, hgoes.apart⟩
      rw [hr, Option.filter_eq_none_iff] at hrow
      simpa using hrow r rfl
    | some r =>
      obtain ⟨hr, hcond⟩ := Option.filter_eq_some_iff.mp hrow
      obtain ⟨hid, hobeys'⟩ := hsome r hr hcond
      have hrid : σ.id r = id := (row_eq_some.mp hr).2
      refine hwrote ⟨some r, g r⟩ _ (fun r' hr' => ?_) (fun _ => ?_) fun _ => hobeys'
      · cases hr'
        rw [hid, hrid]
        exact hr
      · simp only [Session.waits, hcall, hr, Option.any_some, hcond, Bool.true_and] at hwaits
        rw [hid, hrid]
        exact hwaits
  | note n f =>
    rw [hcall] at hobeys
    simp only [hphase, true_and]
    exact ⟨⟨s, hlater, hobeys w⟩, ⟨hgoes.held.1, hgoes.held.2⟩, hgoes.apart⟩

lemma mem_put {e : Session σ L} (h : e ∈ (p.put i c').sessions) : e ∈ p.sessions ∨ e = c' :=
  List.mem_or_eq_of_mem_set h

/-- A session that did not commit leaves those that did. -/
lemma committed_put (c' : Session σ L) (hc : p.running i = some c) (hne : c'.phase ≠ .committed) (j : ℕ)
    (d : Session σ L) (hd : (p.put i c').sessions[j]? = some d) (hphase : d.phase = .committed) :
    p.sessions[j]? = some d := by
  have hi : i < p.sessions.length := (List.getElem?_eq_some_iff.mp (running_eq_some.mp hc).1).1
  simp only [Pool.put, List.getElem?_set] at hd
  split at hd
  · simp only [Option.some.injEq] at hd
    exact absurd (hd ▸ hphase) hne
  · exact hd

/-- A session in another's place, on the same store. -/
lemma Steady.put (h : Steady D p) (hc : p.running i = some c)
    (hgoes : c'.phase = .running → Goes D p i c')
    (hdone : c'.phase = .committed → D.Does c'.label c'.work) : Steady D (p.put i c') := by
  have hfrom : ∀ j d, (p.put i c').running j = some d →
      j = i ∧ d = c' ∧ c'.phase = .running ∨ j ≠ i ∧ p.running j = some d := by
    intro j d hd
    rw [running_put hc] at hd
    split at hd
    · obtain ⟨heq, hphase⟩ := Option.filter_eq_some_iff.mp hd
      cases heq
      exact .inl ⟨‹_›, rfl, by simpa using hphase⟩
    · exact .inr ⟨‹_›, hd⟩
  refine ⟨h.inv, fun j d hd => ?_, fun j d hd => ?_, fun j l d e id hd he hid hid' => ?_,
    fun e he hphase => ?_⟩
  · rcases hfrom j d hd with ⟨rfl, rfl, hrun⟩ | ⟨-, hd⟩
    · exact (hgoes hrun).obeys
    · exact h.obeys j d hd
  · rcases hfrom j d hd with ⟨rfl, rfl, hrun⟩ | ⟨-, hd⟩
    · exact (hgoes hrun).held
    · exact h.held j d hd
  · rcases hfrom j d hd with ⟨hj, rfl, hrun⟩ | ⟨hij, hd₀⟩ <;>
      rcases hfrom l e he with ⟨hl, rfl, hrun'⟩ | ⟨hil, he₀⟩
    · rw [hj, hl]
    · rw [(hgoes hrun).apart l e id hil he₀ hid] at hid'; cases hid'
    · rw [(hgoes hrun').apart j d id hij hd₀ hid'] at hid; cases hid
    · exact h.apart j l d e id hd₀ he₀ hid hid'
  · rcases mem_put he with hold | rfl
    · exact h.done e hold hphase
    · exact hdone hphase

/-- **No update is lost**: what an open transaction wrote is over the committed versions, also after
another's commit. -/
theorem Steady.held_commit (h : Steady D p) (hc : p.running i = some c) {v : Store σ}
    (hv : Sees c.work p.store v) (hd : p.running j = some d) (hij : j ≠ i) : Held d.work v := by
  refine ⟨(h.held j d hd).once, fun w hw r hr => ?_⟩
  have hheld : d.work.holds (σ.id w.after) = true :=
    List.any_eq_true.mpr ⟨w, hw, by simp [hr]⟩
  have hcurrent := (h.held j d hd).current w hw r hr
  rw [hv.row]
  cases hwrote : c.work.wrote (σ.id w.after) with
  | none => exact hcurrent
  | some w' =>
    have hmem : w' ∈ c.work.writes := List.mem_of_find?_eq_some hwrote
    have hid : σ.id w'.after = σ.id w.after := eq_of_beq (List.find?_some hwrote :)
    cases hb : w'.before with
    | none => rw [← hid, hv.created hmem hb] at hcurrent; cases hcurrent
    | some r' =>
      have hother : c.work.holds (σ.id w.after) = true :=
        List.any_eq_true.mpr ⟨w', hmem, by simp [hb, hid]⟩
      exact absurd (h.apart i j c d _ hc hd hother hheld) hij.symm

lemma Steady.commit (h : Steady D p) (hc : p.running i = some c) {v : Store σ}
    (hv : Sees c.work p.store v) (hdoes : D.Does c.label c.work) (hlabel : c'.label = c.label)
    (hwork : c'.work = c.work) (hphase : c'.phase = .committed) :
    Steady D { p.put i c' with store := v } := by
  obtain ⟨hinv, hlater⟩ := D.commit h.inv hv hdoes
  have hput : Steady D (p.put i c') := h.put hc (fun hrun => by rw [hphase] at hrun; cases hrun)
    fun _ => by rw [hlabel, hwork]; exact hdoes
  refine ⟨hinv, fun j d hd => ?_, fun j d hd => ?_, hput.apart, hput.done⟩
  · obtain ⟨s, hs, hobeys⟩ := hput.obeys j d hd
    exact ⟨s, D.trans hs hlater, hobeys⟩
  · have hd' : (p.put i c').running j = some d := hd
    rw [running_put hc] at hd'
    split at hd'
    · obtain ⟨heq, hrun⟩ := Option.filter_eq_some_iff.mp hd'
      cases heq
      simp [hphase] at hrun
    · exact h.held_commit hc hv hd' ‹_›

/-- What an event does to the committed state, and to the sessions that committed. -/
inductive Turns (D : Discipline σ L) (p : Pool σ L) (ev : Event σ L) (p' : Pool σ L) : Prop
  | same (hstore : p'.store = p.store)
      (hold : ∀ (j : ℕ) (d : Session σ L), p'.sessions[j]? = some d → d.phase = .committed →
        p.sessions[j]? = some d)
  | others (r : σ.Rest) (hstore : p'.store = { p.store with rest := r })
      (hsessions : p'.sessions = p.sessions)
  | commits (i : ℕ) (w : σ.Input) (c c' : Session σ L) (hev : ev = .exec i w)
      (hc : p.running i = some c) (hret : c.call = .ret ())
      (hsees : Sees c.work p.store p'.store) (hdoes : D.Does c.label c.work)
      (hsessions : p'.sessions = p.sessions.set i c') (hlabel : c'.label = c.label) (hwork : c'.work = c.work)
      (hphase : c'.phase = .committed)

lemma Turns.later {ev : Event σ L} (h : Turns D p ev p') (hinv : D.Inv p.store) : D.Later p.store p'.store := by
  cases h with
  | same hstore hold => rw [hstore]; exact D.refl _
  | others r hstore hsessions => rw [hstore]; exact (D.others r hinv).2
  | commits i w c c' hev hc hret hsees hdoes => exact (D.commit hinv hsees hdoes).2

/-- **One event.** -/
theorem steady_step {entry : L → Call σ Unit}
    (hentry : ∀ l s, D.Inv s → Obeys D (fun _ k _ => D.Does l k) (entry l) s {})
    (h : Steady D p) {ev : Event σ L} (hs : step entry p ev = some p') :
    Steady D p' ∧ Turns D p ev p' := by
  cases ev with
  | start l =>
    cases hs
    have hold : ∀ j d, Pool.running { p with sessions := p.sessions ++ [⟨l, entry l, {}, .running⟩] } j
        = some d → p.running j = some d ∨ d = ⟨l, entry l, {}, .running⟩ := by
      intro j d hd
      obtain ⟨hj, hrun⟩ := running_eq_some.mp hd
      rcases Nat.lt_or_ge j p.sessions.length with hlt | hge
      · rw [List.getElem?_append_left hlt] at hj
        exact .inl (running_eq_some.mpr ⟨hj, hrun⟩)
      · rw [List.getElem?_append_right hge, List.getElem?_singleton] at hj
        split at hj
        · exact .inr (Option.some.inj hj).symm
        · cases hj
    refine ⟨⟨h.inv, fun j d hd => ?_, fun j d hd => ?_, fun j m d e id hd he hid hid' => ?_,
      fun e he hphase => ?_⟩, .same rfl fun j d hd hphase => ?_⟩
    · rcases hold j d hd with hd | rfl
      · exact h.obeys j d hd
      · exact ⟨p.store, D.refl _, hentry l _ h.inv⟩
    · rcases hold j d hd with hd | rfl
      · exact h.held j d hd
      · exact ⟨List.nodup_nil, nofun⟩
    · rcases hold j d hd with hd | rfl
      · rcases hold m e he with he | rfl
        · exact h.apart j m d e id hd he hid hid'
        · cases hid'
      · cases hid
    · rcases List.mem_append.mp he with he | he
      · exact h.done e he hphase
      · rw [List.mem_singleton.mp he] at hphase; cases hphase
    · rcases Nat.lt_or_ge j p.sessions.length with hlt | hge
      · rwa [List.getElem?_append_left hlt] at hd
      · rw [List.getElem?_append_right hge, List.getElem?_singleton] at hd
        split at hd
        · cases hd; cases hphase
        · cases hd
  | exec i w =>
    obtain ⟨c, v, hc, hv, hwaits, rfl⟩ := step_exec hs
    have hsees : Sees c.work p.store v := ⟨h.held i c hc, hv⟩
    obtain ⟨hlabel, hnext⟩ := h.next (w := w) hc hv hwaits
    have hold := fun hne => committed_put (c.next w v) hc hne
    cases hphase : (c.next w v).phase with
    | running =>
      simp only [hphase] at hnext ⊢
      exact ⟨h.put hc (fun _ => hnext) fun hcom => absurd (hphase.symm.trans hcom) nofun,
        .same rfl fun j d hd hcom => hold (by rw [hphase]; nofun) j d hd hcom⟩
    | rolledBack =>
      simp only [hphase] at hnext ⊢
      exact ⟨h.put hc (fun hrun => absurd (hphase.symm.trans hrun) nofun)
        fun hcom => absurd (hphase.symm.trans hcom) nofun,
        .same rfl fun j d hd hcom => hold (by rw [hphase]; nofun) j d hd hcom⟩
    | committed =>
      simp only [hphase] at hnext ⊢
      refine ⟨h.commit hc hsees hnext.2 hlabel hnext.1 hphase, .commits i w c _ rfl hc ?_ hsees hnext.2
        rfl hlabel hnext.1 hphase⟩
      -- only the end commits
      have hrun : c.phase = .running := (running_eq_some.mp hc).2
      unfold Session.next at hphase
      cases hcall : c.call with
      | ret a => rfl
      | raise e => rw [hcall] at hphase; cases hphase
      | read nm f => simp [hcall, hrun] at hphase
      | note n f => simp [hcall, hrun] at hphase
      | create row f =>
        simp only [hcall, Session.wrote] at hphase
        split at hphase
        · simp [hrun] at hphase
        · cases hphase
      | update id cond g f =>
        simp only [hcall] at hphase
        split at hphase
        · unfold Session.wrote at hphase
          split at hphase
          · simp [hrun] at hphase
          · cases hphase
        · simp [hrun] at hphase
  | rollback i =>
    obtain ⟨c, hc, rfl⟩ := step_rollback hs
    exact ⟨h.put hc nofun nofun, .same rfl fun j d hd hcom => committed_put _ hc (by simp) j d hd hcom⟩
  | others r =>
    cases hs
    obtain ⟨hinv, hlater⟩ := D.others r h.inv
    refine ⟨⟨hinv, fun j d hd => ?_, fun j d hd => ?_, h.apart, h.done⟩, .others r rfl rfl⟩
    · obtain ⟨s, hs, hobeys⟩ := h.obeys j d hd
      exact ⟨s, D.trans hs hlater, hobeys⟩
    · exact ⟨(h.held j d hd).1, (h.held j d hd).2⟩

lemma steady_start (hinv : D.Inv p.store) (hnone : p.sessions = []) : Steady D p := by
  have hrun : ∀ i, p.running i = none := fun i => by simp [Pool.running, hnone]
  refine ⟨hinv, fun i c hc => ?_, fun i c hc => ?_, fun i j c d id hc => ?_, fun c hc => ?_⟩
  · rw [hrun] at hc; cases hc
  · rw [hrun] at hc; cases hc
  · rw [hrun] at hc; cases hc
  · rw [hnone] at hc; cases hc

/-- What committed stays so. -/
lemma committed_step {entry : L → Call σ Unit} {ev : Event σ L} (hs : step entry p ev = some p')
    (hc : p.sessions[j]? = some c) (hphase : c.phase = .committed) : p'.sessions[j]? = some c := by
  have hput : ∀ i c' d, p.running i = some d → (p.put i c').sessions[j]? = some c := by
    intro i c' d hd
    have hij : i ≠ j := by
      rintro rfl
      obtain ⟨hd, hrun⟩ := running_eq_some.mp hd
      rw [hc, Option.some.injEq] at hd
      rw [hd, hrun] at hphase
      cases hphase
    rw [Pool.put, List.getElem?_set_ne hij]
    exact hc
  cases ev with
  | start l =>
    cases hs
    rw [List.getElem?_append_left (List.getElem?_eq_some_iff.mp hc).1]
    exact hc
  | exec i w =>
    obtain ⟨d, v, hd, -, -, rfl⟩ := step_exec hs
    split
    · exact hput i _ d hd
    · exact hput i _ d hd
  | rollback i =>
    obtain ⟨d, hd, rfl⟩ := step_rollback hs
    exact hput i _ d hd
  | others r => cases hs; exact hc

variable {entry : L → Call σ Unit} {ok : Pool σ L → Event σ L → Prop}

/-- **Whole runs**: what every turn of a steady pool keeps holds wherever a run gets. -/
theorem steady_reach (hentry : ∀ l s, D.Inv s → Obeys D (fun _ k _ => D.Does l k) (entry l) s {})
    {P : Pool σ L → Prop} (h : Steady D p) (h0 : P p) (hreach : Reach entry ok p p')
    (hstep : ∀ p ev p', Steady D p → P p → ok p ev → step entry p ev = some p' → Turns D p ev p' → P p') :
    Steady D p' ∧ P p' := by
  induction hreach with
  | refl => exact ⟨h, h0⟩
  | tail _ hev ih =>
    obtain ⟨ev, hok, hs⟩ := hev
    obtain ⟨hsteady, hturns⟩ := steady_step hentry ih.1 hs
    exact ⟨hsteady, hstep _ ev _ ih.1 ih.2 hok hs hturns⟩

end Step

end Splitcore.Isolation
