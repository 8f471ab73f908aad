import Mathlib.Logic.Relation
import Splitcore.Relational.Table

/-!
Read-committed transactions side by side.

A call is the tree of its statements. Each statement sees what is committed when it is executed,
and what its own transaction wrote; the others see none of that before the commit. A row that an
open transaction rewrote is locked: an update of it waits, and then finds the committed version.
An update by a condition is a scan followed by an update of each row found, which looks at the
condition again.
-/

namespace Splitcore.Isolation

open Relational

/-- What calls are written over: the rows they rewrite, under an id that is one of their keys; the
notes they add to a table nobody rewrites; the rest of the database, which they read. -/
structure Schema where
  Row : Type
  Key : Type
  Id : Type
  id : Row → Id
  idKey : Id → Key
  Note : Type
  Rest : Type
  Input : Type
  Name : Type
  Err : Type
  [indexed : Indexed Row Key]
  [decKey : DecidableEq Key]
  [decId : DecidableEq Id]
  idKey_mem : ∀ r, idKey (id r) ∈ Indexed.keys r

attribute [instance] Schema.indexed Schema.decKey Schema.decId

structure Store (σ : Schema) where
  table : Table σ.Row
  notes : List σ.Note
  rest : σ.Rest

def Store.row {σ : Schema} (s : Store σ) (id : σ.Id) : Option σ.Row := s.table.find (σ.id · == id)

/-- A call: what it does up to its end, where its transaction commits, or is rolled back. -/
inductive Call (σ : Schema) (α : Type) where
  | ret (a : α)
  | raise (e : σ.Err)
  | read (nm : σ.Name) (k : σ.Input → Store σ → Call σ α)
  | create (row : σ.Input → σ.Row) (k : σ.Row → Call σ α)
  /-- Answers the new row, if there is one that meets the condition. -/
  | update (id : σ.Id) (cond : σ.Row → Bool) (f : σ.Row → σ.Row) (k : Option σ.Row → Call σ α)
  | note (n : σ.Input → σ.Note) (k : Call σ α)

variable {σ : Schema} {α β : Type}

namespace Call

def bind : Call σ α → (α → Call σ β) → Call σ β
  | .ret a, g => g a
  | .raise e, _ => .raise e
  | .read nm k, g => .read nm fun w s => (k w s).bind g
  | .create row k, g => .create row fun r => (k r).bind g
  | .update id cond f k, g => .update id cond f fun r => (k r).bind g
  | .note n k, g => .note n (k.bind g)

instance : Monad (Call σ) where
  pure := .ret
  bind := bind

/-- A statement that reads. -/
def query (nm : σ.Name) (f : σ.Input → Store σ → α) : Call σ α := .read nm fun w s => .ret (f w s)

def insert (row : σ.Input → σ.Row) : Call σ σ.Row := .create row .ret

/-- Answers the number of rows that still met the condition. -/
def updateEach (cond : σ.Row → Bool) (f : σ.Row → σ.Row) : List σ.Id → Call σ ℕ
  | [] => .ret 0
  | id :: ids => .update id cond f fun r =>
    (updateEach cond f ids).bind fun n => .ret (r.toList.length + n)

/-- `UPDATE .. SET f WHERE cond`. -/
def updateMany (nm : σ.Name) (cond : σ.Row → Bool) (f : σ.Row → σ.Row) : Call σ ℕ :=
  (query nm fun _ s => (s.table.rows.filter cond).map σ.id).bind (updateEach cond f)

@[simp] lemma pure_eq (a : α) : (pure a : Call σ α) = .ret a := rfl
@[simp] lemma bind_eq (c : Call σ α) (g : α → Call σ β) : c >>= g = c.bind g := rfl
@[simp] lemma ret_bind (a : α) (g : α → Call σ β) : (Call.ret a).bind g = g a := rfl

end Call

/-! ### What a transaction wrote -/

/-- A version a transaction made of a row: of the committed one, or of none. -/
structure Write (σ : Schema) where
  before : Option σ.Row
  after : σ.Row

def Write.apply (t : Table σ.Row) (w : Write σ) : Option (Table σ.Row) :=
  match w.before with
  | none => t.insert w.after
  | some _ => t.update (σ.id · == σ.id w.after) fun _ => w.after

/-- A row written again keeps what it was written over. -/
def record (ws : List (Write σ)) (w : Write σ) : List (Write σ) :=
  if ws.any (σ.id ·.after == σ.id w.after) then
    ws.map fun v => if σ.id v.after == σ.id w.after then { v with after := w.after } else v
  else ws ++ [w]

/-- What a transaction did: what its statements saw, the rows it wrote, the notes it added. -/
structure Work (σ : Schema) where
  reads : List (σ.Name × Store σ) := []
  writes : List (Write σ) := []
  notes : List σ.Note := []

/-- The committed state with the transaction's own writes, if they are compatible. -/
def Work.view (k : Work σ) (s : Store σ) : Option (Store σ) :=
  (k.writes.foldlM Write.apply s.table).map fun t =>
    { s with table := t, notes := s.notes ++ k.notes }

/-- The rows a transaction holds the lock of. -/
def Work.holds (k : Work σ) (id : σ.Id) : Bool :=
  k.writes.any fun w => w.before.isSome && σ.id w.after == id

/-! ### Sessions -/

inductive Phase where
  | running | committed | rolledBack
deriving DecidableEq

structure Session (σ : Schema) (L : Type) where
  label : L
  call : Call σ Unit
  work : Work σ
  phase : Phase

structure Pool (σ : Schema) (L : Type) where
  store : Store σ
  sessions : List (Session σ L)

inductive Event (σ : Schema) (L : Type) where
  | start (l : L)
  /-- The next statement, or the end. -/
  | exec (i : ℕ) (w : σ.Input)
  /-- A crash, a timeout or a deadlock. -/
  | rollback (i : ℕ)
  /-- Others change the rest of the database. -/
  | others (r : σ.Rest)

variable {L : Type}

namespace Pool

def running (p : Pool σ L) (i : ℕ) : Option (Session σ L) :=
  p.sessions[i]?.filter (·.phase == .running)

def put (p : Pool σ L) (i : ℕ) (s : Session σ L) : Pool σ L :=
  { p with sessions := p.sessions.set i s }

/-- Another open transaction holds the row. -/
def locked (p : Pool σ L) (i : ℕ) (id : σ.Id) : Bool :=
  (List.range p.sessions.length).any fun j =>
    j != i && (p.running j).any (·.work.holds id)

end Pool

/-- The session goes on with a row written, unless that breaks a unique index. -/
def Session.wrote (s : Session σ L) (v : Store σ) (w : Write σ) (k : Call σ Unit) : Session σ L :=
  if (w.apply v.table).isSome then
    { s with call := k, work := { s.work with writes := record s.work.writes w } }
  else { s with phase := .rolledBack }

/-- The session after its next statement, executed on what it sees. -/
def Session.next (s : Session σ L) (w : σ.Input) (v : Store σ) : Session σ L :=
  match s.call with
  | .ret _ => { s with phase := .committed }
  | .raise _ => { s with phase := .rolledBack }
  | .read nm k =>
    { s with call := k w v, work := { s.work with reads := s.work.reads ++ [(nm, v)] } }
  | .create row k => s.wrote v ⟨none, row w⟩ (k (row w))
  | .update id cond f k => match (v.row id).filter cond with
    | some r => s.wrote v ⟨some r, f r⟩ (k (some (f r)))
    | none => { s with call := k none }
  | .note n k => { s with call := k, work := { s.work with notes := s.work.notes ++ [n w] } }

/-- An update of a row that meets its condition, and that another transaction holds, waits. -/
def Session.waits (s : Session σ L) (p : Pool σ L) (i : ℕ) (v : Store σ) : Bool :=
  match s.call with
  | .update id cond _ _ => (v.row id).any cond && p.locked i id
  | _ => false

def step (entry : L → Call σ Unit) (p : Pool σ L) : Event σ L → Option (Pool σ L)
  | .start l => some { p with sessions := p.sessions ++ [⟨l, entry l, {}, .running⟩] }
  | .exec i w => (p.running i).bind fun s => (s.work.view p.store).bind fun v =>
    if s.waits p i v then none
    else
      let s' := s.next w v
      some (if s'.phase = .committed then { p.put i s' with store := v } else p.put i s')
  | .rollback i => (p.running i).map fun s => p.put i { s with phase := .rolledBack }
  | .others r => some { p with store := { p.store with rest := r } }

def run (entry : L → Call σ Unit) (p : Pool σ L) (evs : List (Event σ L)) : Option (Pool σ L) :=
  evs.foldlM (step entry) p

/-- Reachable by events that each satisfy `ok` in the state they happen in. -/
def Reach (entry : L → Call σ Unit) (ok : Pool σ L → Event σ L → Prop) :
    Pool σ L → Pool σ L → Prop :=
  Relation.ReflTransGen fun p p' => ∃ ev, ok p ev ∧ step entry p ev = some p'

/-- Any event. -/
def anyEvent (_ : Pool σ L) (_ : Event σ L) : Prop := True

lemma reach_of_run {entry : L → Call σ Unit} {p p' : Pool σ L} {evs : List (Event σ L)}
    (h : run entry p evs = some p') : Reach entry anyEvent p p' := by
  induction evs generalizing p with
  | nil => cases h; exact .refl
  | cons ev evs ih =>
    simp only [run, List.foldlM_cons, Option.bind_eq_bind, Option.bind_eq_some_iff] at h
    obtain ⟨q, hq, hrest⟩ := h
    exact (ih hrest).head ⟨ev, trivial, hq⟩

end Splitcore.Isolation
