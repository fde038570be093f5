import Recast.Store.Table
import Recast.Graph.Model

/-!
# Store — tables under resources and configurations

A store keeps tables under pairs of a resource and a configuration.  A table comes to be with the
first write to it, even one without cells, and ceases to be only when it is deleted.  What a write
answers tells whether it has made the table.

* `Store.put`, `Store.putAll`, `Store.delete` — the writes;
* `Store.cell`, `Store.get`, `Store.ofResource`, `Store.schema`, `Store.rows` — the reads;
* `Store.putModel` — all statements of a model.
-/

namespace Recast

/-- The place of a table. -/
structure StoreKey where
  resource : String
  configuration : String
  deriving DecidableEq, Repr

namespace StoreKey

def text (k : StoreKey) : String :=
  k.resource ++ "/" ++ k.configuration

/-- Keys in the order of their resources, then of their configurations. -/
def order (k l : StoreKey) : Ordering :=
  (compare k.resource l.resource).then (compare k.configuration l.configuration)

end StoreKey

/-- A value that has been made, was there, or is not there. -/
inductive Persisted (α : Type u) where
  | created (value : α)
  | existing (value : α)
  | notFound
  deriving DecidableEq, Repr

namespace Persisted

variable {α : Type u} {β : Type v}

def value? : Persisted α → Option α
  | .created v | .existing v => some v
  | .notFound => none

def isCreated : Persisted α → Bool
  | .created _ => true
  | _ => false

def isExisting : Persisted α → Bool
  | .existing _ => true
  | _ => false

def isFound : Persisted α → Bool
  | .notFound => false
  | _ => true

def map (f : α → β) : Persisted α → Persisted β
  | .created v => .created (f v)
  | .existing v => .existing (f v)
  | .notFound => .notFound

end Persisted

/-- Tables by their keys. -/
structure Store where
  tables : OrderedMap StoreKey Table
  deriving DecidableEq, Inhabited

namespace Store

def empty : Store := ⟨.empty⟩

/-! ## Reads -/

def get? (s : Store) (k : StoreKey) : Option Table :=
  s.tables.get? k

/-- The table under a key; an absent one is empty. -/
def get (s : Store) (k : StoreKey) : Table :=
  (s.get? k).getD .empty

def size (s : Store) : Nat := s.tables.size

def cell (s : Store) (k : StoreKey) (subject predicate : String) : Persisted String :=
  match (s.get k).cell? subject predicate with
  | some o => .existing o
  | none => .notFound

def schema (s : Store) (k : StoreKey) : OrderedSet String :=
  (s.get k).predicates

def rows (s : Store) (k : StoreKey) (atMost : Nat) : List (String × Row) :=
  (s.get k).toList.take atMost

def keys (s : Store) : List StoreKey :=
  s.tables.keys.mergeSort fun k l => (k.order l).isLE

/-- The tables of a resource in the order of their configurations. -/
def ofResource (s : Store) (resource : String) : List (String × Table) :=
  (s.keys.filter fun k => k.resource = resource).map fun k => (k.configuration, s.get k)

/-! ## Writes -/

/-- The answer of a write: the table has been made, or it was there. -/
def reply (s : Store) (k : StoreKey) (value : α) : Persisted α :=
  if (s.get? k).isSome then .existing value else .created value

/-- Set a cell; the answer has the object that stood in it before. -/
def put (s : Store) (k : StoreKey) (c : Cell) : Persisted (Option String) × Store :=
  (s.reply k ((s.get k).cell? c.subject c.predicate), ⟨s.tables.put k ((s.get k).write c)⟩)

/-- Set cells one after the other; the answer has their number. -/
def putAll (s : Store) (k : StoreKey) (cs : List Cell) : Persisted Nat × Store :=
  (s.reply k cs.length, ⟨s.tables.put k ((s.get k).writeAll cs)⟩)

/-- Delete a table; the answer is whether there was one. -/
def delete (s : Store) (k : StoreKey) : Bool × Store :=
  ((s.get? k).isSome, ⟨s.tables.erase k⟩)

/-- The cell of a statement: resources and literals are not told apart. -/
def cellOf (s : Statement) : Cell :=
  ⟨s.subject, s.predicate, s.object.value⟩

/-- Set the cells of all statements of a model in their order. -/
def putModel (s : Store) (k : StoreKey) (m : Model) : Persisted Nat × Store :=
  s.putAll k (m.statements.map cellOf)

end Store
end Recast
