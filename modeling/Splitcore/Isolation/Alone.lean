import Splitcore.Isolation.Sessions

/-!
A call by itself: nobody else is at work, so every statement sees what is committed and what the call
wrote, and no row is locked.
-/

namespace Splitcore.Isolation

open Relational

variable {σ : Schema} {α β : Type}

/-- What a call comes to by itself, and the store its transaction has made by then. A statement can
fail by a fault: a unique index, or the database. -/
inductive Alone (fault : σ.Err → Prop) : Call σ α → Store σ → Except σ.Err α → Store σ → Prop
  | ret (a : α) (s : Store σ) : Alone fault (.ret a) s (.ok a) s
  | raise (e : σ.Err) (s : Store σ) : Alone fault (.raise e) s (.error e) s
  | fails {e : σ.Err} (c : Call σ α) (s : Store σ) (he : fault e) : Alone fault c s (.error e) s
  | read {nm : σ.Name} {k : σ.Input → Store σ → Call σ α} {s s' : Store σ} {res : Except σ.Err α}
      (w : σ.Input) (h : Alone fault (k w s) s res s') : Alone fault (.read nm k) s res s'
  | create {row : σ.Input → σ.Row} {k : σ.Row → Call σ α} {s s' : Store σ} {t : Table σ.Row}
      {res : Except σ.Err α} (w : σ.Input) (ht : s.table.insert (row w) = some t)
      (h : Alone fault (k (row w)) { s with table := t } res s') : Alone fault (.create row k) s res s'
  | update {id : σ.Id} {cond : σ.Row → Bool} {f : σ.Row → σ.Row} {k : Option σ.Row → Call σ α}
      {s s' : Store σ} {t : Table σ.Row} {res : Except σ.Err α} {r : σ.Row}
      (hr : (s.row id).filter cond = some r) (ht : s.table.update (σ.id · == id) (fun _ => f r) = some t)
      (h : Alone fault (k (some (f r))) { s with table := t } res s') : Alone fault (.update id cond f k) s res s'
  | skip {id : σ.Id} {cond : σ.Row → Bool} {f : σ.Row → σ.Row} {k : Option σ.Row → Call σ α}
      {s s' : Store σ} {res : Except σ.Err α} (hr : (s.row id).filter cond = none)
      (h : Alone fault (k none) s res s') : Alone fault (.update id cond f k) s res s'
  | note {n : σ.Input → σ.Note} {k : Call σ α} {s s' : Store σ} {res : Except σ.Err α} (w : σ.Input)
      (h : Alone fault k { s with notes := s.notes ++ [n w] } res s') : Alone fault (.note n k) s res s'

/-- The transaction is committed when the call answers, and rolled back when it throws. -/
def Commits (fault : σ.Err → Prop) (c : Call σ α) (s : Store σ) (res : Except σ.Err α) (s' : Store σ) : Prop :=
  ∃ s₁, Alone fault c s res s₁ ∧ s' = match res with
    | .ok _ => s₁
    | .error _ => s

section Alone

variable {fault : σ.Err → Prop} {s s' : Store σ} {res : Except σ.Err α}

lemma Commits.error {e : σ.Err} {c : Call σ α} (h : Commits fault c s (.error e) s') : s' = s := by
  obtain ⟨-, -, rfl⟩ := h
  rfl

lemma Commits.ok {a : α} {c : Call σ α} (h : Commits fault c s (.ok a) s') : Alone fault c s (.ok a) s' := by
  obtain ⟨_, h, rfl⟩ := h
  exact h

lemma alone_ret {a b : α} (h : Alone fault (.ret a) s (.ok b) s') : b = a ∧ s' = s := by
  cases h
  exact ⟨rfl, rfl⟩

lemma alone_raise {e : σ.Err} {a : α} (h : Alone fault (.raise e) s (.ok a) s') : False := by
  cases h

/-- An answer goes back to an answer of the first part. -/
lemma alone_bind {c : Call σ α} {g : α → Call σ β} {b : β} (h : Alone fault (c.bind g) s (.ok b) s') :
    ∃ a s₁, Alone fault c s (.ok a) s₁ ∧ Alone fault (g a) s₁ (.ok b) s' := by
  induction c generalizing s with
  | ret a => exact ⟨a, s, .ret a s, h⟩
  | raise e => exact (alone_raise h).elim
  | read nm k ih =>
    cases h with
    | read w h =>
      obtain ⟨a, s₁, hc, hg⟩ := ih w s h
      exact ⟨a, s₁, .read w hc, hg⟩
  | create row k ih =>
    cases h with
    | create w ht h =>
      obtain ⟨a, s₁, hc, hg⟩ := ih _ h
      exact ⟨a, s₁, .create w ht hc, hg⟩
  | update id cond f k ih =>
    cases h with
    | update hr ht h =>
      obtain ⟨a, s₁, hc, hg⟩ := ih _ h
      exact ⟨a, s₁, .update hr ht hc, hg⟩
    | skip hr h =>
      obtain ⟨a, s₁, hc, hg⟩ := ih _ h
      exact ⟨a, s₁, .skip hr hc, hg⟩
  | note n k ih =>
    cases h with
    | note w h =>
      obtain ⟨a, s₁, hc, hg⟩ := ih h
      exact ⟨a, s₁, .note w hc, hg⟩

lemma alone_query {nm : σ.Name} {f : σ.Input → Store σ → α} {a : α}
    (h : Alone fault (Call.query nm f) s (.ok a) s') : s' = s ∧ ∃ w, a = f w s := by
  cases h with
  | read w h =>
    obtain ⟨rfl, rfl⟩ := alone_ret h
    exact ⟨rfl, w, rfl⟩

lemma alone_insert {row : σ.Input → σ.Row} {r : σ.Row} (h : Alone fault (Call.insert row) s (.ok r) s') :
    ∃ w t, r = row w ∧ s.table.insert r = some t ∧ s' = { s with table := t } := by
  cases h with
  | create w ht h =>
    obtain ⟨rfl, rfl⟩ := alone_ret h
    exact ⟨w, _, rfl, ht, rfl⟩

lemma alone_note {n : σ.Input → σ.Note} {u : Unit} (h : Alone fault (.note n (.ret ())) s (.ok u) s') :
    s'.table = s.table ∧ s'.rest = s.rest := by
  cases h with
  | note w h =>
    obtain ⟨-, rfl⟩ := alone_ret h
    exact ⟨rfl, rfl⟩

/-- An update of one row found it and rewrote it, or did nothing. -/
lemma alone_update {id : σ.Id} {cond : σ.Row → Bool} {f : σ.Row → σ.Row} {o : Option σ.Row}
    (h : Alone fault (.update id cond f .ret) s (.ok o) s') :
    (o = none ∧ s' = s ∧ (s.row id).filter cond = none) ∨
      ∃ r t, o = some (f r) ∧ (s.row id).filter cond = some r ∧
        s.table.update (σ.id · == id) (fun _ => f r) = some t ∧ s' = { s with table := t } := by
  cases h with
  | update hr ht h =>
    obtain ⟨rfl, rfl⟩ := alone_ret h
    exact .inr ⟨_, _, rfl, hr, ht, rfl⟩
  | skip hr h =>
    obtain ⟨rfl, rfl⟩ := alone_ret h
    exact .inl ⟨rfl, rfl, hr⟩

end Alone

/-! ### The rows a call leaves -/

/-- Each row became one that `R` allows, and none was added. -/
def Moves (R : σ.Row → σ.Row → Prop) (t t' : Table σ.Row) : Prop := List.Forall₂ R t.rows t'.rows

section Moves

variable {R : σ.Row → σ.Row → Prop} {cond : σ.Row → Bool} {f : σ.Row → σ.Row} {t t' t'' : Table σ.Row}
  {fault : σ.Err → Prop} {s s' : Store σ} {id : σ.Id} {r : σ.Row}

lemma Moves.refl (hrefl : ∀ r, R r r) (t : Table σ.Row) : Moves R t t :=
  List.forall₂_same.mpr fun r _ => hrefl r

lemma Moves.trans (htrans : ∀ a b c, R a b → R b c → R a c) (h : Moves R t t') (h' : Moves R t' t'') :
    Moves R t t'' := by
  unfold Moves at *
  generalize t.rows = rows, t'.rows = rows', t''.rows = rows'' at h h'
  induction h generalizing rows'' with
  | nil => cases h'; exact .nil
  | cons hab _ ih =>
    cases h' with
    | cons hbc hrest => exact .cons (htrans _ _ _ hab hbc) (ih _ hrest)

lemma row_filter (h : (s.row id).filter cond = some r) : r ∈ s.table.rows ∧ σ.id r = id ∧ cond r = true := by
  obtain ⟨hrow, hcond⟩ := Option.filter_eq_some_iff.mp h
  exact ⟨Table.mem_of_find hrow, eq_of_beq (Table.of_find hrow :), hcond⟩

/-- An update of one row moves it, and the others stay. -/
lemma moves_update (hrefl : ∀ r, R r r) (hr : (s.row id).filter cond = some r) (hmove : R r (f r))
    (ht : s.table.update (σ.id · == id) (fun _ => f r) = some t) : Moves R s.table t := by
  obtain ⟨hmem, hrid, -⟩ := row_filter hr
  unfold Moves
  rw [Table.rows_update ht, List.forall₂_map_right_iff, List.forall₂_same]
  intro r' hr'
  split
  · rename_i hid
    have hkey : σ.idKey (σ.id r) ∈ Indexed.keys r' := by
      rw [hrid, ← eq_of_beq hid]
      exact σ.idKey_mem r'
    obtain rfl := Table.eq_of_key hmem hr' (σ.idKey_mem r) hkey
    exact hmove
  · exact hrefl r'

lemma alone_updateEach (hrefl : ∀ r, R r r) (htrans : ∀ a b c, R a b → R b c → R a c)
    (hmove : ∀ r, cond r = true → R r (f r)) {ids : List σ.Id} {n : ℕ}
    (h : Alone fault (Call.updateEach cond f ids) s (.ok n) s') :
    Moves R s.table s'.table ∧ s'.rest = s.rest := by
  induction ids generalizing s n with
  | nil =>
    obtain ⟨-, rfl⟩ := alone_ret h
    exact ⟨.refl hrefl _, rfl⟩
  | cons id ids ih =>
    have hrest : ∀ {o : Option σ.Row} {s₁ : Store σ},
        Alone fault ((Call.updateEach cond f ids).bind fun n => .ret (o.toList.length + n)) s₁ (.ok n) s' →
        Moves R s₁.table s'.table ∧ s'.rest = s₁.rest := by
      intro o s₁ h
      obtain ⟨m, s₂, hids, hret⟩ := alone_bind h
      obtain ⟨-, rfl⟩ := alone_ret hret
      exact ih hids
    cases h with
    | update hr ht h =>
      obtain ⟨hmoves, hsame⟩ := hrest h
      exact ⟨(moves_update hrefl hr (hmove _ (row_filter hr).2.2) ht).trans htrans hmoves, hsame⟩
    | skip hr h => exact hrest h

/-- `UPDATE .. SET f WHERE cond` moves rows that meet the condition. -/
lemma alone_updateMany (hrefl : ∀ r, R r r) (htrans : ∀ a b c, R a b → R b c → R a c)
    (hmove : ∀ r, cond r = true → R r (f r)) {nm : σ.Name} {n : ℕ}
    (h : Alone fault (Call.updateMany nm cond f) s (.ok n) s') :
    Moves R s.table s'.table ∧ s'.rest = s.rest := by
  obtain ⟨ids, s₁, hquery, heach⟩ := alone_bind h
  obtain ⟨rfl, -⟩ := alone_query hquery
  exact alone_updateEach hrefl htrans hmove heach

end Moves

/-! ### Running one -/

/-- A call by itself whose statements all take the input `w`; nothing, if a unique index refuses. -/
def Call.perform (w : σ.Input) : Call σ α → Store σ → Option (Except σ.Err α × Store σ)
  | .ret a, s => some (.ok a, s)
  | .raise e, s => some (.error e, s)
  | .read _ k, s => (k w s).perform w s
  | .create row k, s => (s.table.insert (row w)).bind fun t => (k (row w)).perform w { s with table := t }
  | .update id cond f k, s => match (s.row id).filter cond with
    | some r => (s.table.update (σ.id · == id) fun _ => f r).bind fun t =>
      (k (some (f r))).perform w { s with table := t }
    | none => (k none).perform w s
  | .note n k, s => k.perform w { s with notes := s.notes ++ [n w] }

lemma alone_perform {fault : σ.Err → Prop} {w : σ.Input} {c : Call σ α} {s s' : Store σ} {res : Except σ.Err α}
    (h : c.perform w s = some (res, s')) : Alone fault c s res s' := by
  induction c generalizing s with
  | ret a =>
    cases h
    exact .ret _ _
  | raise e =>
    cases h
    exact .raise _ _
  | read nm k ih => exact .read w (ih w s h)
  | create row k ih =>
    obtain ⟨t, ht, h⟩ := Option.bind_eq_some_iff.mp h
    exact .create w ht (ih _ h)
  | update id cond f k ih =>
    unfold Call.perform at h
    split at h
    · rename_i r hr
      obtain ⟨t, ht, h⟩ := Option.bind_eq_some_iff.mp h
      exact .update hr ht (ih _ h)
    · rename_i hr
      exact .skip hr (ih _ h)
  | note n k ih => exact .note w (ih h)

end Splitcore.Isolation
