import Splitcore.Db

/-!
Statements and transactions on the database.

A transaction reads the clock, draws random identifiers and rewrites the database; when it
throws, none of it happened. A single statement is a transaction of one.
-/

namespace Splitcore

open Relational

/-- What is thrown. -/
inductive Err where
  | notFound (message : String)
  | badRequest (message : String)
  | conflict (message : String)
  | gone (message : String)
  | unauthorized (message : String)
  | settlementIntegrity (message reference : String)
  | unbalancedLedger (totalDebits totalCredits : ℤ)
  | invalidPosting (message : String)
  | accountResolution (message : String)
  /-- A bad request whose body also shows the entertainer's KYC status. -/
  | accountUnresolved (message : String) (entertainer : Entertainer)
  | uniqueViolation
  | foreignKeyViolation
  | checkViolation
  | recordNotFound
  | typeError
  | outside (message : String)
deriving DecidableEq

/-- What a statement takes from outside the database. -/
structure Input where
  now : Time
  uuid : ℕ → Uuid
  nanoid : String
  /-- 32 random bytes, in hexadecimal. -/
  randomBytes : String
  /-- The order a query without `ORDER BY` returns rows in. -/
  rank : Uuid → ℕ

/-- The state: the database, and how many identifiers were drawn. -/
def Tx (α : Type) : Type := Input → Db × ℕ → Except Err (α × Db × ℕ)

namespace Tx

variable {α β γ : Type} {w : Input} {σ σ' : Db × ℕ} {db db' : Db}

instance : Monad Tx where
  pure a := fun _ σ => .ok (a, σ)
  bind m f := fun w σ => match m w σ with
    | .ok (a, σ') => f a w σ'
    | .error e => .error e

def throw (e : Err) : Tx α := fun _ _ => .error e
def liftExcept (r : Except Err α) : Tx α := fun _ σ => r.map (·, σ)
def now : Tx Time := fun w σ => .ok (w.now, σ)
def read (f : Db → α) : Tx α := fun _ σ => .ok (f σ.1, σ)
def freshId : Tx Uuid := fun w σ => .ok (w.uuid σ.2, σ.1, σ.2 + 1)
def nanoid : Tx String := fun w σ => .ok (w.nanoid, σ)
def randomBytes : Tx String := fun w σ => .ok (w.randomBytes, σ)
def rank : Tx (Uuid → ℕ) := fun w σ => .ok (w.rank, σ)

/-- Rewrites the database, or breaks a unique index. -/
def write (f : Db → Option Db) : Tx Unit := fun _ σ => match f σ.1 with
  | some db => .ok ((), db, σ.2)
  | none => .error .uniqueViolation

def run (m : Tx α) (w : Input) (db : Db) : Except Err (α × Db) :=
  (m w (db, 0)).map fun r => (r.1, r.2.1)

/-! ### When a transaction commits -/

@[simp] lemma pure_ok {a b : α} : (pure a : Tx α) w σ = .ok (b, σ') ↔ a = b ∧ σ = σ' := by
  simp [pure]

@[simp] lemma bind_ok {m : Tx α} {f : α → Tx β} {b : β} :
    (m >>= f) w σ = .ok (b, σ') ↔ ∃ a σ₁, m w σ = .ok (a, σ₁) ∧ f a w σ₁ = .ok (b, σ') := by
  show (match m w σ with | .ok (a, σ') => f a w σ' | .error e => .error e) = _ ↔ _
  rcases h : m w σ with e | ⟨a, σ₁⟩
  · simp
  · simp only [Except.ok.injEq, Prod.mk.injEq]
    constructor
    · exact fun h => ⟨a, σ₁, ⟨rfl, rfl⟩, h⟩
    · rintro ⟨a', σ₁', ⟨rfl, rfl⟩, h⟩; exact h

@[simp] lemma throw_ok {e : Err} {a : α} : (throw e : Tx α) w σ = .ok (a, σ') ↔ False := by
  simp [throw]

@[simp] lemma liftExcept_ok {r : Except Err α} {a : α} :
    liftExcept r w σ = .ok (a, σ') ↔ r = .ok a ∧ σ = σ' := by
  cases r <;> simp [liftExcept, Except.map]

@[simp] lemma now_ok {t : Time} : now w σ = .ok (t, σ') ↔ w.now = t ∧ σ = σ' := by
  simp [now]

@[simp] lemma read_ok {f : Db → α} {a : α} :
    read f w σ = .ok (a, σ') ↔ f σ.1 = a ∧ σ = σ' := by
  simp [read]

@[simp] lemma freshId_ok {u : Uuid} :
    freshId w σ = .ok (u, σ') ↔ w.uuid σ.2 = u ∧ σ' = (σ.1, σ.2 + 1) := by
  simp [freshId, eq_comm]

@[simp] lemma nanoid_ok {s : String} : nanoid w σ = .ok (s, σ') ↔ w.nanoid = s ∧ σ = σ' := by
  simp [nanoid]

@[simp] lemma randomBytes_ok {s : String} : randomBytes w σ = .ok (s, σ') ↔ w.randomBytes = s ∧ σ = σ' := by
  simp [randomBytes]

@[simp] lemma rank_ok {r : Uuid → ℕ} : rank w σ = .ok (r, σ') ↔ w.rank = r ∧ σ = σ' := by
  simp [rank]

@[simp] lemma write_ok {f : Db → Option Db} {u : Unit} :
    write f w σ = .ok (u, σ') ↔ f σ.1 = some σ'.1 ∧ σ'.2 = σ.2 := by
  unfold write
  rcases h : f σ.1 with _ | db
  · simp
  · rcases σ' with ⟨db', n'⟩
    simp [eq_comm]

lemma run_ok {m : Tx α} {a : α} :
    m.run w db = .ok (a, db') ↔ ∃ n, m w (db, 0) = .ok (a, db', n) := by
  unfold run
  rcases h : m w (db, 0) with e | ⟨b, db₁, n⟩
  · simp [Except.map]
  · simp [Except.map]

lemma bind_error {m : Tx α} {f : α → Tx β} {e : Err} :
    (m >>= f) w σ = .error e ↔
      m w σ = .error e ∨ ∃ a σ₁, m w σ = .ok (a, σ₁) ∧ f a w σ₁ = .error e := by
  show (match m w σ with | .ok (a, σ') => f a w σ' | .error e => .error e) = _ ↔ _
  rcases h : m w σ with e' | ⟨a, σ₁⟩
  · simp
  · simp only [reduceCtorEq, Except.ok.injEq, Prod.mk.injEq, false_or]
    constructor
    · exact fun h => ⟨a, σ₁, ⟨rfl, rfl⟩, h⟩
    · rintro ⟨a', σ₁', ⟨rfl, rfl⟩, h⟩; exact h

lemma run_error {m : Tx α} {e : Err} : m.run w db = .error e ↔ m w (db, 0) = .error e := by
  unfold run
  rcases h : m w (db, 0) with e' | ⟨b, db₁, n⟩
  · simp [Except.map]
  · simp [Except.map]

/-- What the transaction throws is in `E`. -/
def Throws (E : Err → Prop) (m : Tx α) : Prop := ∀ w σ e, m w σ = .error e → E e

section Throws

variable {E : Err → Prop} {m : Tx α} {k : α → Tx β}

lemma throws_pure {a : α} : (pure a : Tx α).Throws E := fun _ _ _ h => by cases h

lemma throws_throw {e : Err} (he : E e) : (throw e : Tx α).Throws E := fun _ _ _ h => by cases h; exact he

lemma throws_bind (hm : m.Throws E) (hk : ∀ a, (k a).Throws E) : (m >>= k).Throws E :=
  fun w σ e h => by
    rcases bind_error.mp h with h | ⟨a, σ₁, -, h⟩
    · exact hm w σ e h
    · exact hk a w σ₁ e h

lemma throws_now : now.Throws E := fun _ _ _ h => by cases h

lemma throws_read {f : Db → α} : (read f).Throws E := fun _ _ _ h => by cases h

lemma throws_freshId : freshId.Throws E := fun _ _ _ h => by cases h

lemma throws_write {f : Db → Option Db} (he : E .uniqueViolation) : (write f).Throws E := fun w σ e h => by
  unfold write at h
  split at h
  · cases h
  · cases h
    exact he

lemma throws_liftExcept {r : Except Err α} (hr : ∀ e, r = .error e → E e) : (liftExcept r).Throws E :=
  fun w σ e h => by
    rcases r with e' | a
    · cases h
      exact hr e rfl
    · cases h

lemma Throws.run (h : m.Throws E) {e : Err} (hm : m.run w db = .error e) : E e :=
  h w _ e (run_error.mp hm)

end Throws

/-- A transaction that begins by reading the clock. -/
@[simp] lemma run_now {m : Time → Tx α} : (now >>= m).run w db = (m w.now).run w db := rfl

/-- The transaction does not change what `f` shows. -/
def Leaves (f : Db → β) (m : Tx α) : Prop :=
  ∀ w σ a σ', m w σ = .ok (a, σ') → f σ'.1 = f σ.1

section Leaves

variable {f : Db → β} {m : Tx α} {k : α → Tx γ}

lemma leaves_pure {a : α} : (pure a : Tx α).Leaves f := fun w σ b σ' h => by
  rw [(pure_ok.mp h).2]

lemma leaves_bind (hm : m.Leaves f) (hk : ∀ a, (k a).Leaves f) : (m >>= k).Leaves f :=
  fun w σ c σ' h => by
    obtain ⟨a, σ₁, h₁, h₂⟩ := bind_ok.mp h
    exact (hk a w σ₁ c σ' h₂).trans (hm w σ a σ₁ h₁)

lemma leaves_throw {e : Err} : (throw e : Tx α).Leaves f := fun _ _ _ _ h => (throw_ok.mp h).elim

lemma leaves_read {g : Db → α} : (read g).Leaves f := fun w σ a σ' h => by
  rw [(read_ok.mp h).2]

lemma leaves_freshId : freshId.Leaves f := fun w σ u σ' h => by
  rw [(freshId_ok.mp h).2]

lemma leaves_randomBytes : randomBytes.Leaves f := fun w σ s σ' h => by
  rw [(randomBytes_ok.mp h).2]

lemma leaves_now {k : Time → Tx γ} (hk : ∀ t, (k t).Leaves f) : (now >>= k).Leaves f :=
  leaves_bind (fun w σ t σ' h => by rw [(now_ok.mp h).2]) hk

lemma Leaves.run (h : m.Leaves f) {a : α} (hm : m.run w db = .ok (a, db')) : f db' = f db := by
  obtain ⟨n, hn⟩ := run_ok.mp hm
  exact h w _ a _ hn

end Leaves

/-- What `put` changes, the transaction neither reads nor writes. -/
def Ignores (put : Db → Db) (m : Tx α) : Prop :=
  ∀ w σ, m w (put σ.1, σ.2) = (m w σ).map fun r => (r.1, put r.2.1, r.2.2)

section Ignores

variable {put : Db → Db} {m : Tx α} {k : α → Tx γ}

lemma ignores_pure {a : α} : (pure a : Tx α).Ignores put := fun _ _ => rfl

lemma ignores_throw {e : Err} : (throw e : Tx α).Ignores put := fun _ _ => rfl

lemma ignores_liftExcept {r : Except Err α} : (liftExcept r).Ignores put := fun _ _ => by cases r <;> rfl

lemma ignores_now : now.Ignores put := fun _ _ => rfl

lemma ignores_freshId : freshId.Ignores put := fun _ _ => rfl

lemma ignores_read {f : Db → α} (hf : ∀ db, f (put db) = f db) : (read f).Ignores put := fun w σ => by
  show Except.ok (f (put σ.1), _) = _
  rw [hf]
  rfl

lemma ignores_write {f : Db → Option Db} (hf : ∀ db, f (put db) = (f db).map put) :
    (write f).Ignores put := fun w σ => by
  simp only [write, hf]
  rcases f σ.1 with _ | db <;> rfl

lemma ignores_bind (hm : m.Ignores put) (hk : ∀ a, (k a).Ignores put) : (m >>= k).Ignores put := fun w σ => by
  show (match m w (put σ.1, σ.2) with | .ok (a, σ') => k a w σ' | .error e => .error e) = _
  rw [hm]
  show _ = Except.map _ (match m w σ with | .ok (a, σ') => k a w σ' | .error e => .error e)
  rcases m w σ with e | ⟨a, σ'⟩
  · rfl
  · exact hk a w σ'

lemma Ignores.run (h : m.Ignores put) : m.run w (put db) = (m.run w db).map fun r => (r.1, put r.2) := by
  show (m w (put (db, 0).1, (db, 0).2)).map _ = ((m w (db, 0)).map _).map _
  rw [h]
  rcases m w (db, 0) with e | r <;> rfl

end Ignores

end Tx

/-! ### Statements on one table -/

/-- A table of the database. -/
structure Model (α : Type) [Indexed α Key] where
  get : Db → Table α
  set : Db → Table α → Db
  get_set : ∀ db t, get (set db t) = t := by intros; rfl
  set_get : ∀ db, set db (get db) = db := by intros; rfl

namespace Model

variable {α : Type} [Indexed α Key] (M : Model α)

def findFirst (p : α → Bool) : Tx (Option α) := Tx.read fun db => (M.get db).find p

def findUniqueOrThrow (p : α → Bool) : Tx α := do
  match ← M.findFirst p with
  | some r => pure r
  | none => Tx.throw .recordNotFound

/-- The number of rows updated. -/
def updateMany (p : α → Bool) (f : α → α) : Tx ℕ := do
  let count ← Tx.read fun db => (M.get db).rows.countP p
  Tx.write fun db => ((M.get db).update p f).map (M.set db)
  pure count

/-- Throws when there is no such row. -/
def update (p : α → Bool) (f : α → α) : Tx Unit := do
  let count ← M.updateMany p f
  if count = 0 then Tx.throw .recordNotFound else pure ()

/-- Answers the row it updated, which has to pass the table's `CHECK`. -/
def updateOne (check : α → Bool) (p : α → Bool) (f : α → α) : Tx α := do
  M.update p f
  let r ← M.findUniqueOrThrow p
  if check r then pure r else Tx.throw .checkViolation

def create (r : α) : Tx Unit := Tx.write fun db => ((M.get db).insert r).map (M.set db)

/-- Throws when there is no such row. -/
def delete (p : α → Bool) : Tx Unit := do
  let count ← Tx.read fun db => (M.get db).rows.countP p
  if count = 0 then Tx.throw .recordNotFound
  else Tx.write fun db => some (M.set db ((M.get db).delete p))

variable {M} {w : Input} {σ σ' : Db × ℕ} {p : α → Bool} {f : α → α} {r : α}

lemma create_throws {E : Err → Prop} (he : E .uniqueViolation) : (M.create r).Throws E :=
  Tx.throws_write he

lemma updateMany_throws {E : Err → Prop} (he : E .uniqueViolation) : (M.updateMany p f).Throws E :=
  Tx.throws_bind Tx.throws_read fun _ => Tx.throws_bind (Tx.throws_write he) fun _ => Tx.throws_pure

lemma findUniqueOrThrow_throws {E : Err → Prop} (he : E .recordNotFound) :
    (M.findUniqueOrThrow p).Throws E := by
  refine Tx.throws_bind Tx.throws_read fun found => ?_
  cases found
  · exact Tx.throws_throw he
  · exact Tx.throws_pure

lemma findFirst_ok {o : Option α} :
    M.findFirst p w σ = .ok (o, σ') ↔ (M.get σ.1).find p = o ∧ σ = σ' := by
  simp [findFirst]

lemma updateMany_ok {n : ℕ} (h : M.updateMany p f w σ = .ok (n, σ')) :
    n = (M.get σ.1).rows.countP p ∧
      ∃ t, (M.get σ.1).update p f = some t ∧ σ' = (M.set σ.1 t, σ.2) := by
  simp only [updateMany, Tx.bind_ok, Tx.read_ok, Tx.write_ok, Tx.pure_ok] at h
  obtain ⟨c, σ₁, ⟨rfl, rfl⟩, ⟨⟩, σ₂, ⟨hw, hn⟩, rfl, rfl⟩ := h
  obtain ⟨t, ht, hdb⟩ := Option.map_eq_some_iff.mp hw
  exact ⟨rfl, t, ht, Prod.ext hdb.symm hn⟩

/-- It fails only where an update would break a unique index. -/
lemma updateMany_of_keys (hkeys : ∀ r, p r = true → Indexed.keys (f r) = Indexed.keys r) :
    ∃ n σ', M.updateMany p f w σ = .ok (n, σ') := by
  obtain ⟨t, ht⟩ := Table.update_of_keys (t := M.get σ.1) hkeys
  refine ⟨(M.get σ.1).rows.countP p, (M.set σ.1 t, σ.2), ?_⟩
  simp only [updateMany, Tx.bind_ok, Tx.read_ok, Tx.write_ok, Tx.pure_ok]
  exact ⟨_, σ, ⟨rfl, rfl⟩, (), (M.set σ.1 t, σ.2), ⟨by rw [ht]; rfl, rfl⟩, rfl, rfl⟩

lemma create_ok {u : Unit} (h : M.create r w σ = .ok (u, σ')) :
    ∃ t, (M.get σ.1).insert r = some t ∧ σ' = (M.set σ.1 t, σ.2) := by
  simp only [create, Tx.write_ok] at h
  obtain ⟨t, ht, hdb⟩ := Option.map_eq_some_iff.mp h.1
  exact ⟨t, ht, Prod.ext hdb.symm h.2⟩

lemma delete_ok {u : Unit} (h : M.delete p w σ = .ok (u, σ')) :
    σ' = (M.set σ.1 ((M.get σ.1).delete p), σ.2) := by
  simp only [delete, Tx.bind_ok, Tx.read_ok] at h
  obtain ⟨n, _, ⟨-, rfl⟩, h⟩ := h
  split at h
  · simp at h
  · obtain ⟨hdb, hn⟩ := Tx.write_ok.mp h
    exact Prod.ext (Option.some.inj hdb).symm hn

/-- Nothing matched, nothing happened. -/
lemma updateMany_zero (h : M.updateMany p f w σ = .ok (0, σ')) : σ' = σ := by
  obtain ⟨h0, t, ht, rfl⟩ := updateMany_ok h
  rw [eq_comm, List.countP_eq_zero] at h0
  rw [Table.update_of_none (fun r hr => by simpa using h0 r hr) ht, M.set_get]

lemma updateMany_pos {n : ℕ} (h : M.updateMany p f w σ = .ok (n, σ')) (hn : n ≠ 0) :
    ∃ r ∈ (M.get σ.1).rows, p r = true := by
  rw [(updateMany_ok h).1] at hn
  simpa [List.countP_eq_zero] using hn

lemma findUniqueOrThrow_ok {r : α} (h : M.findUniqueOrThrow p w σ = .ok (r, σ')) :
    (M.get σ.1).find p = some r ∧ σ' = σ := by
  simp only [findUniqueOrThrow, Tx.bind_ok, findFirst_ok] at h
  obtain ⟨o, _, ⟨ho, rfl⟩, h⟩ := h
  rcases o with _ | r'
  · simp at h
  · simp only [Tx.pure_ok] at h
    obtain ⟨rfl, rfl⟩ := h
    exact ⟨ho, rfl⟩

lemma update_ok {u : Unit} (h : M.update p f w σ = .ok (u, σ')) :
    ∃ t, (M.get σ.1).update p f = some t ∧ σ' = (M.set σ.1 t, σ.2) := by
  simp only [update, Tx.bind_ok] at h
  obtain ⟨n, σ₁, hupd, h⟩ := h
  split at h
  · simp at h
  · simp only [Tx.pure_ok] at h
    rw [← h.2]; exact (updateMany_ok hupd).2

lemma updateOne_ok {check : α → Bool} (h : M.updateOne check p f w σ = .ok (r, σ')) :
    ∃ t, (M.get σ.1).update p f = some t ∧ σ' = (M.set σ.1 t, σ.2) ∧ t.find p = some r ∧
      check r = true := by
  simp only [updateOne, Tx.bind_ok] at h
  obtain ⟨⟨⟩, σ₁, hupd, r', σ₂, hfind, h⟩ := h
  obtain ⟨t, ht, rfl⟩ := update_ok hupd
  obtain ⟨hr, rfl⟩ := findUniqueOrThrow_ok hfind
  rw [M.get_set] at hr
  split at h
  · rename_i hcheck
    simp only [Tx.pure_ok] at h
    obtain ⟨rfl, rfl⟩ := h
    exact ⟨t, ht, rfl, hr, hcheck⟩
  · simp at h

/-- What the statements on one row throw. -/
lemma updateOne_error {check : α → Bool} {e : Err} (h : M.updateOne check p f w σ = .error e) :
    e = .uniqueViolation ∨ e = .recordNotFound ∨ e = .checkViolation := by
  simp only [updateOne, update, updateMany, findUniqueOrThrow, Tx.bind_error] at h
  rcases h with (h | ⟨n, σ₁, -, h⟩) | ⟨⟨⟩, σ₁, -, h | ⟨r, σ₂, -, h⟩⟩
  · rcases h with h | ⟨c, σ₁, -, h | ⟨⟨⟩, σ₂, -, h⟩⟩
    · cases h
    · unfold Tx.write at h
      split at h
      · cases h
      · cases h; exact .inl rfl
    · cases h
  · split at h
    · cases h; exact .inr (.inl rfl)
    · cases h
  · rcases h with h | ⟨o, σ₂, -, h⟩
    · cases h
    · rcases o with _ | r
      · cases h; exact .inr (.inl rfl)
      · cases h
  · split at h
    · cases h
    · cases h; exact .inr (.inr rfl)

/-- An update by one column, which it keeps, as searches by that column see it. -/
lemma updateOne_find {γ : Type} [DecidableEq γ] {check : α → Bool} {key : α → γ} {c : γ}
    (hkey : ∀ r, key (f r) = key r)
    (h : M.updateOne check (fun r => key r == c) f w σ = .ok (r, σ')) :
    ∃ found, (M.get σ.1).find (fun r => key r == c) = some found ∧ r = f found ∧
      check (f found) = true ∧ ∀ d, (M.get σ'.1).find (fun r => key r == d) =
        if d = c then some (f found) else (M.get σ.1).find fun r => key r == d := by
  obtain ⟨t, ht, rfl, hr, hcheck⟩ := updateOne_ok h
  have hfind : ∀ d, t.find (fun r => key r == d) = ((M.get σ.1).find fun r => key r == d).map
      fun r => if key r == c then f r else r := fun d =>
    Table.find_update (fun r _ => by rw [hkey]) ht
  rw [hfind, Option.map_eq_some_iff] at hr
  obtain ⟨found, hfound, rfl⟩ := hr
  have hc : (key found == c) = true := Table.of_find (p := fun r => key r == c) hfound
  rw [if_pos hc] at hcheck
  refine ⟨found, hfound, if_pos hc, hcheck, fun d => ?_⟩
  rw [M.get_set, hfind]
  by_cases hd : d = c
  · rw [if_pos hd, hd, hfound, Option.map_some, if_pos hc]
  · rw [if_neg hd]
    rcases hrow : (M.get σ.1).find fun r => key r == d with _ | row
    · rfl
    · have hrowd : (key row == d) = true := Table.of_find (p := fun r => key r == d) hrow
      simp only [beq_iff_eq] at hrowd
      rw [Option.map_some, if_neg (by simpa [hrowd] using hd)]

lemma updateMany_leaves {β : Type} {g : Db → β} (hset : ∀ db t, g (M.set db t) = g db) :
    (M.updateMany p f).Leaves g := fun w σ n σ' h => by
  obtain ⟨-, t, -, rfl⟩ := updateMany_ok h
  exact hset _ _

lemma update_leaves {β : Type} {g : Db → β} (hset : ∀ db t, g (M.set db t) = g db) :
    (M.update p f).Leaves g := fun w σ n σ' h => by
  obtain ⟨t, -, rfl⟩ := update_ok h
  exact hset _ _

lemma create_leaves {β : Type} {g : Db → β} (hset : ∀ db t, g (M.set db t) = g db) : (M.create r).Leaves g :=
  fun w σ n σ' h => by
    obtain ⟨t, -, rfl⟩ := create_ok h
    exact hset _ _

lemma updateOne_leaves {β : Type} {g : Db → β} {check : α → Bool} (hset : ∀ db t, g (M.set db t) = g db) :
    (M.updateOne check p f).Leaves g := fun w σ n σ' h => by
  obtain ⟨t, -, rfl, -⟩ := updateOne_ok h
  exact hset _ _

lemma delete_leaves {β : Type} {g : Db → β} (hset : ∀ db t, g (M.set db t) = g db) : (M.delete p).Leaves g :=
  fun w σ n σ' h => by
    rw [delete_ok h]
    exact hset _ _

/-- `put` changes nothing of the table. -/
structure Apart (M : Model α) (put : Db → Db) : Prop where
  get : ∀ db, M.get (put db) = M.get db
  set : ∀ db t, M.set (put db) t = put (M.set db t)

section Apart

variable {put : Db → Db} (h : M.Apart put)
include h

lemma Apart.findFirst : (M.findFirst p).Ignores put := Tx.ignores_read fun db => by rw [h.get]

lemma Apart.findUniqueOrThrow : (M.findUniqueOrThrow p).Ignores put := by
  refine Tx.ignores_bind h.findFirst fun found => ?_
  cases found
  · exact Tx.ignores_throw
  · exact Tx.ignores_pure

lemma Apart.updateMany : (M.updateMany p f).Ignores put := by
  refine Tx.ignores_bind (Tx.ignores_read fun db => by rw [h.get]) fun count => ?_
  refine Tx.ignores_bind (Tx.ignores_write fun db => ?_) fun _ => Tx.ignores_pure
  rw [h.get, Option.map_map]
  exact congrArg (Option.map · _) (funext fun t => h.set db t)

lemma Apart.create : (M.create r).Ignores put := Tx.ignores_write fun db => by
  rw [h.get, Option.map_map]
  exact congrArg (Option.map · _) (funext fun t => h.set db t)

end Apart

/-! The tables under the names the Prisma client gives them. -/

def paymentTransaction : Model PaymentTransaction where
  get := Db.payments
  set db t := { db with payments := t }

def splitRule : Model SplitRule where
  get := Db.splitRules
  set db t := { db with splitRules := t }

def ledgerAccount : Model LedgerAccount where
  get := Db.ledgerAccounts
  set db t := { db with ledgerAccounts := t }

def payout : Model Payout where
  get := Db.payouts
  set db t := { db with payouts := t }

def entertainer : Model Entertainer where
  get := Db.entertainers
  set db t := { db with entertainers := t }

def venue : Model Venue where
  get := Db.venues
  set db t := { db with venues := t }

def venueEntertainer : Model VenueEntertainer where
  get := Db.venueEntertainers
  set db t := { db with venueEntertainers := t }

def qrCode : Model QrCode where
  get := Db.qrCodes
  set db t := { db with qrCodes := t }

def guestSession : Model GuestSession where
  get := Db.guestSessions
  set db t := { db with guestSessions := t }

def webhookEvent : Model WebhookEvent where
  get := Db.webhookEvents
  set db t := { db with webhookEvents := t }

def webhookJob : Model WebhookJob where
  get := Db.webhookJobs
  set db t := { db with webhookJobs := t }

def entertainerLoginToken : Model EntertainerLoginToken where
  get := Db.loginTokens
  set db t := { db with loginTokens := t }

end Model

end Splitcore
