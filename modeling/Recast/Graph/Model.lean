import Recast.OrderedMap
import Recast.OrderedSet
import Recast.Graph.AttributePath
import Recast.Graph.Statement

/-!
# Model — the statements of a run, grouped by record

A `Model` lists records in the order in which they were first met, the statements of a record
likewise, and so the attribute paths of its schema.  It may name the class of its records.
-/

namespace Recast

/-- Records with their statements, the class of the records and the paths that lead to values. -/
structure Model where
  records : OrderedMap String (OrderedSet Statement)
  recordClass : Option String
  schema : OrderedSet AttributePath
  deriving DecidableEq

namespace Model

def empty : Model := ⟨.empty, none, .empty⟩

instance : Inhabited Model := ⟨empty⟩

/-! ## Views -/

def recordUris (m : Model) : List String := m.records.keys

def statements (m : Model) : List Statement :=
  m.records.toList.flatMap fun r => r.2.toList

def statementsFor? (m : Model) (record : String) : Option (OrderedSet Statement) :=
  m.records.get? record

def size (m : Model) : Nat := m.statements.length

/-- The distinct predicates, each at its first place. -/
def predicates (m : Model) : List String :=
  (OrderedSet.ofList (m.statements.map Statement.predicate)).toList

/-! ## Operations -/

/-- The statements of a record; a record not met yet has none. -/
def statementsOf (m : Model) (record : String) : OrderedSet Statement :=
  (m.statementsFor? record).getD .empty

/-- Add a record, even if it stays without statements. -/
def addRecord (m : Model) (record : String) : Model :=
  { m with records := m.records.put record (m.statementsOf record) }

def addStatement (m : Model) (record : String) (s : Statement) : Model :=
  { m with records := m.records.put record ((m.statementsOf record).insert s) }

def holds (m : Model) (record : String) (s : Statement) : Bool :=
  s ∈ m.statementsOf record

def addPath (m : Model) (p : AttributePath) : Model :=
  { m with schema := m.schema.insert p }

def setRecordClass (m : Model) (uri : String) : Model :=
  { m with recordClass := some uri }

def addStatements (m : Model) (record : String) (ss : OrderedSet Statement) : Model :=
  { m with records := m.records.put record ((m.statementsOf record).union ss) }

/-- Fold a second model into a first one: records keep their first place, and the second class
counts only where the first model has none. -/
def merge (m n : Model) : Model :=
  let grown := n.records.toList.foldl (fun acc r => acc.addStatements r.1 r.2) m
  { grown with
    schema := m.schema.union n.schema
    recordClass := m.recordClass.or n.recordClass }

/-! ## Equality up to order -/

/-- Whether two models hold the same records, statements and paths in any order. -/
def agrees (m n : Model) : Bool :=
  m.recordClass == n.recordClass &&
    m.schema.size == n.schema.size && m.schema.toList.all (fun p => p ∈ n.schema) &&
    m.records.size == n.records.size && m.records.toList.all fun r =>
      match n.statementsFor? r.1 with
      | none => false
      | some ss => r.2.size == ss.size && r.2.toList.all fun s => s ∈ ss

end Model
end Recast
