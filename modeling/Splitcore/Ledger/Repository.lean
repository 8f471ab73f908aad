import Splitcore.Ledger.Service

/-!
Ledger persistence. Every write happens inside the caller's transaction, so a posting
commits or rolls back with the state change that caused it.
-/

namespace Splitcore.Ledger

open Relational

/-- `WHERE type = .. AND owner_id IS NOT DISTINCT FROM ..` -/
def isAccount (type : LedgerAccountType) (ownerId : Option Uuid) (a : LedgerAccount) : Bool :=
  a.type == type && a.ownerId == ownerId

/-- `INSERT .. ON CONFLICT DO NOTHING`. -/
def insertAccount (type : LedgerAccountType) (ownerId : Option Uuid) : Tx Unit := do
  let id ← Tx.freshId
  let existing ← Model.ledgerAccount.findFirst (isAccount type ownerId)
  if existing.isNone then Model.ledgerAccount.create ⟨id, type, ownerId⟩ else pure ()

/-- Find or create. -/
def resolveAccountId (type : LedgerAccountType) (ownerId : Option Uuid) : Tx Uuid := do
  insertAccount type ownerId
  let account ← Model.ledgerAccount.findFirst (isAccount type ownerId)
  match account with
  | some a => pure a.id
  | none => Tx.throw .typeError

/-- The map from account type and owner to account id, each resolved once. -/
abbrev AccountIds := List ((LedgerAccountType × Option Uuid) × Uuid)

def accountIds : List LedgerEntrySpec → AccountIds → Tx AccountIds
  | [], ids => pure ids
  | entry :: entries, ids =>
    if (ids.lookup (entry.accountType, entry.ownerId)).isSome then accountIds entries ids
    else do
      let id ← resolveAccountId entry.accountType entry.ownerId
      accountIds entries (((entry.accountType, entry.ownerId), id) :: ids)

def row (transactionId : Uuid) (ids : AccountIds) (now : Time) (entry : LedgerEntrySpec) :
    LedgerEntry where
  transactionId := transactionId
  accountId := (ids.lookup (entry.accountType, entry.ownerId)).getD default
  direction := entry.direction
  amountKobo := entry.amountKobo
  createdAt := now

def post (origin : Origin) (transactionId : Uuid) (entries : List LedgerEntrySpec) :
    Tx Unit := do
  Tx.liftExcept (assertBalanced entries)
  let ids ← accountIds entries []
  let now ← Tx.now
  Tx.write fun db => some { db with
    postings := db.postings ++ [⟨origin, transactionId, entries.map (row transactionId ids now)⟩] }

/-! ### What they do to the database -/

variable {w : Input} {σ σ' : Db × ℕ} {type : LedgerAccountType} {owner : Option Uuid} {id : Uuid}

lemma isAccount_iff {a : LedgerAccount} :
    isAccount type owner a = true ↔ a = ⟨a.id, type, owner⟩ := by
  rcases a with ⟨_, _, _⟩
  simp [isAccount]

/-- The condition is a unique index. -/
lemma names_account : Table.Names (isAccount type owner) (.account type owner) := fun a ha => by
  rw [isAccount_iff.mp ha]
  simp [Indexed.keys]

/-- The accounts after some were added. -/
def AddsAccounts (db db' : Db) : Prop :=
  ∃ t : Table LedgerAccount, db' = { db with ledgerAccounts := t } ∧
    db.ledgerAccounts.rows <+: t.rows

lemma AddsAccounts.refl (db : Db) : AddsAccounts db db := ⟨_, rfl, List.prefix_rfl⟩

lemma AddsAccounts.trans {db₁ db₂ db₃ : Db} (h : AddsAccounts db₁ db₂)
    (h' : AddsAccounts db₂ db₃) : AddsAccounts db₁ db₃ := by
  obtain ⟨t, rfl, ht⟩ := h
  obtain ⟨t', rfl, ht'⟩ := h'
  exact ⟨t', rfl, ht.trans ht'⟩

lemma AddsAccounts.mem {db db' : Db} (h : AddsAccounts db db') {a : LedgerAccount}
    (ha : a ∈ db.ledgerAccounts.rows) : a ∈ db'.ledgerAccounts.rows := by
  obtain ⟨t, rfl, ht⟩ := h
  exact ht.subset ha

/-- An account is determined by its type and owner. -/
lemma account_unique {t : Table LedgerAccount} {id id' : Uuid}
    (h : ⟨id, type, owner⟩ ∈ t.rows) (h' : ⟨id', type, owner⟩ ∈ t.rows) : id = id' := by
  have := Table.eq_of_key (k := .account type owner) h h' (by simp [Indexed.keys])
    (by simp [Indexed.keys])
  exact congrArg LedgerAccount.id this

lemma insertAccount_ok {u : Unit} (h : insertAccount type owner w σ = .ok (u, σ')) :
    AddsAccounts σ.1 σ'.1 := by
  simp only [insertAccount, Tx.bind_ok, Tx.freshId_ok, Model.findFirst_ok] at h
  obtain ⟨_, σ₁, ⟨-, rfl⟩, _, σ₂, ⟨rfl, rfl⟩, hins⟩ := h
  split at hins
  · obtain ⟨t, ht, rfl⟩ := Model.create_ok hins
    exact ⟨t, rfl, by rw [Table.rows_insert ht]; exact List.prefix_append _ _⟩
  · simp only [Tx.pure_ok] at hins
    rw [← hins.2]; exact .refl _

theorem resolveAccountId_ok (h : resolveAccountId type owner w σ = .ok (id, σ')) :
    AddsAccounts σ.1 σ'.1 ∧ ⟨id, type, owner⟩ ∈ σ'.1.ledgerAccounts.rows := by
  simp only [resolveAccountId, Tx.bind_ok, Model.findFirst_ok] at h
  obtain ⟨⟨⟩, σ₁, hins, o, σ₂, ⟨ho, rfl⟩, hret⟩ := h
  rcases o with _ | a
  · simp at hret
  · simp only [Tx.pure_ok] at hret
    obtain ⟨rfl, rfl⟩ := hret
    refine ⟨insertAccount_ok hins, ?_⟩
    rw [← isAccount_iff.mp (Table.of_find ho)]
    exact Table.mem_of_find ho

/-- Each known account is in the table under its type and owner. -/
def Known (db : Db) (ids : AccountIds) : Prop :=
  ∀ type owner id, ids.lookup (type, owner) = some id → ⟨id, type, owner⟩ ∈ db.ledgerAccounts.rows

lemma accountIds_ok {entries : List LedgerEntrySpec} {ids ids' : AccountIds}
    (h : accountIds entries ids w σ = .ok (ids', σ')) (hk : Known σ.1 ids) :
    AddsAccounts σ.1 σ'.1 ∧ Known σ'.1 ids' ∧
      (∀ k id, ids.lookup k = some id → ids'.lookup k = some id) ∧
      ∀ e ∈ entries, (ids'.lookup (e.accountType, e.ownerId)).isSome := by
  induction entries generalizing ids σ with
  | nil =>
    simp only [accountIds, Tx.pure_ok] at h
    obtain ⟨rfl, rfl⟩ := h
    exact ⟨.refl _, hk, fun _ _ h => h, by simp⟩
  | cons e es ih =>
    unfold accountIds at h
    split at h
    · rename_i hsome
      obtain ⟨h1, h2, h3, h4⟩ := ih h hk
      refine ⟨h1, h2, h3, List.forall_mem_cons.mpr ⟨?_, h4⟩⟩
      obtain ⟨id, hid⟩ := Option.isSome_iff_exists.mp hsome
      rw [h3 _ _ hid]; rfl
    · rename_i hnone
      simp only [Tx.bind_ok] at h
      obtain ⟨id, σ₁, hres, hrest⟩ := h
      obtain ⟨hadd, hmem⟩ := resolveAccountId_ok hres
      have hk' : Known σ₁.1 (((e.accountType, e.ownerId), id) :: ids) := by
        intro type owner id' hl
        rw [List.lookup_cons] at hl
        split at hl
        · rename_i heq
          obtain ⟨rfl, rfl⟩ := Prod.mk.inj (beq_iff_eq.mp heq)
          cases hl; exact hmem
        · exact hadd.mem (hk _ _ _ hl)
      obtain ⟨h1, h2, h3, h4⟩ := ih hrest hk'
      refine ⟨hadd.trans h1, h2, fun k id' hl => h3 k id' ?_, List.forall_mem_cons.mpr ⟨?_, h4⟩⟩
      · rw [List.lookup_cons]
        split
        · rename_i heq
          rw [beq_iff_eq.mp heq] at hl
          rw [hl] at hnone; simp at hnone
        · exact hl
      · rw [h3 _ id (by simp)]; rfl

/-- The entry a line of a posting is written as. -/
def Writes (db : Db) (transactionId : Uuid) (spec : LedgerEntrySpec) (e : LedgerEntry) : Prop :=
  e.transactionId = transactionId ∧ e.direction = spec.direction ∧
    e.amountKobo = spec.amountKobo ∧
    ⟨e.accountId, spec.accountType, spec.ownerId⟩ ∈ db.ledgerAccounts.rows

lemma Writes.mono {db db' : Db} {id : Uuid} {spec : LedgerEntrySpec} {e : LedgerEntry}
    (h : Writes db id spec e) (hacc : db.ledgerAccounts.rows <+: db'.ledgerAccounts.rows) :
    Writes db' id spec e :=
  ⟨h.1, h.2.1, h.2.2.1, hacc.subset h.2.2.2⟩

/-- **A posting writes its entries**, one for each line, on the account of the line's type and
owner. -/
theorem post_ok {origin : Origin} {txId : Uuid} {specs : List LedgerEntrySpec} {u : Unit}
    (h : post origin txId specs w σ = .ok (u, σ')) : assertBalanced specs = .ok () ∧
      ∃ db es, AddsAccounts σ.1 db ∧ List.Forall₂ (Writes db txId) specs es ∧
        σ'.1 = { db with postings := σ.1.postings ++ [⟨origin, txId, es⟩] } := by
  simp only [post, Tx.bind_ok, Tx.liftExcept_ok, Tx.now_ok, Tx.write_ok] at h
  obtain ⟨⟨⟩, σ₁, ⟨hb, rfl⟩, ids, σ₂, hids, _, _, ⟨rfl, rfl⟩, hw, -⟩ := h
  obtain ⟨hadd, hk, -, hall⟩ := accountIds_ok hids (by simp [Known])
  refine ⟨hb, σ₂.1, specs.map (row txId ids w.now), hadd, ?_,
    (Option.some.inj hw).symm.trans ?_⟩
  · rw [List.forall₂_map_right_iff, List.forall₂_same]
    intro e he
    obtain ⟨id, hid⟩ := Option.isSome_iff_exists.mp (hall e he)
    refine ⟨rfl, rfl, rfl, ?_⟩
    rw [row, hid]; exact hk _ _ _ hid
  · obtain ⟨t, ht, -⟩ := hadd
    rw [ht]

end Splitcore.Ledger
