import Recast.OrderedMap
import Recast.OrderedSet

/-!
# Table — cells under subjects and predicates

A table holds one object for each subject and predicate.  Subjects stand in the order in which they
were first written, and so do the predicates of each subject.

* `Table.write` — set a cell;
* `Table.cell?` — read one;
* `Table.predicates` — the distinct predicates, row by row.

Main statement: `cell?_write`, a write changes the cell it names and no other one.
-/

namespace Recast

/-- An object that is to stand under a subject and a predicate. -/
structure Cell where
  subject : String
  predicate : String
  object : String
  deriving DecidableEq, Repr

/-- The objects of a subject by their predicates. -/
abbrev Row := OrderedMap String String

/-- The rows by their subjects. -/
abbrev Table := OrderedMap String Row

namespace Table

/-- The row of a subject; a subject not met yet has an empty one. -/
def row (t : Table) (subject : String) : Row :=
  (t.get? subject).getD .empty

/-- The object under a subject and a predicate. -/
def cell? (t : Table) (subject predicate : String) : Option String :=
  (t.row subject).get? predicate

def write (t : Table) (c : Cell) : Table :=
  t.put c.subject ((t.row c.subject).put c.predicate c.object)

def writeAll (t : Table) (cs : List Cell) : Table :=
  cs.foldl write t

/-- The distinct predicates, each at its first place, row by row. -/
def predicates (t : Table) : OrderedSet String :=
  .ofList (t.values.flatMap OrderedMap.keys)

/-! ## Laws -/

/-- A write changes the row of its subject and no other. -/
theorem row_write (t : Table) (c : Cell) (s : String) :
    (t.write c).row s =
      if c.subject = s then (t.row c.subject).put c.predicate c.object else t.row s := by
  unfold row write
  rw [OrderedMap.get?_put]
  split <;> rfl

/-- A write sets one cell and leaves all others as they are. -/
theorem cell?_write (t : Table) (c : Cell) (s p : String) :
    (t.write c).cell? s p =
      if c.subject = s ∧ c.predicate = p then some c.object else t.cell? s p := by
  unfold cell?
  rw [row_write]
  by_cases hs : c.subject = s
  · subst hs
    simp [OrderedMap.get?_put]
  · simp [hs]

end Table
end Recast
