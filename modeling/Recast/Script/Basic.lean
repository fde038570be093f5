import Recast.Job.Component

/-!
# Script — programs for streams of records

A script lists rules.  A *data rule* reads one source, passes its values through functions and
emits them under a name; a *collect rule* gathers the values of several data rules.  Functions
refer to lookup tables and rules to filters by name.
-/

namespace Recast
namespace Script

/-- A call of a function with its attributes. -/
structure Call where
  name : String
  attributes : OrderedMap String String
  deriving DecidableEq

structure DataRule where
  source : String
  name : Option String
  filter : Option String
  functions : List Call
  deriving DecidableEq

/-- A rule that gathers the values of several sources. -/
structure CollectRule where
  kind : String
  name : String
  attributes : OrderedMap String String
  inputs : List DataRule
  deriving DecidableEq

/-- A rule of a script. -/
inductive Rule where
  | data (r : DataRule)
  | collect (r : CollectRule)
  deriving DecidableEq

def Rule.name? : Rule → Option String
  | .data r => r.name
  | .collect r => some r.name

/-! ## Lookup tables -/

/-- An entry of a lookup table, which may have entries of its own. -/
structure Entry where
  name : String
  value : Option String
  entries : List Entry
  deriving Inhabited

namespace Entry

mutual
def decEq : (a b : Entry) → Decidable (a = b)
  | ⟨n, v, es⟩, ⟨m, w, fs⟩ =>
      have := decEqAll es fs
      decidable_of_iff (n = m ∧ v = w ∧ es = fs) (by simp)

def decEqAll : (as bs : List Entry) → Decidable (as = bs)
  | [], [] => isTrue rfl
  | a :: as, b :: bs =>
      have := decEq a b
      have := decEqAll as bs
      decidable_of_iff (a = b ∧ as = bs) (by simp)
  | [], _ :: _ | _ :: _, [] => isFalse (by simp)
end

instance : DecidableEq Entry := decEq

end Entry

/-- A named table of entries. -/
structure Table where
  name : String
  entries : List Entry
  deriving DecidableEq

namespace Table

/-- The value of the first entry with a name. -/
def get? (t : Table) (name : String) : Option String :=
  (t.entries.find? fun e => e.name = name).bind Entry.value

def contains (t : Table) (name : String) : Bool :=
  t.entries.any fun e => e.name = name

/-- The entries as a map: the last entry of a name counts, and one without value has none. -/
def toMap (t : Table) : OrderedMap String String :=
  .ofList (t.entries.map fun e => (e.name, e.value.getD ""))

end Table

/-- Whether a name is that of a variable, which only the rules of a script see. -/
def isVariable (name : String) : Bool :=
  match name.toList with
  | '@' :: _ => true
  | _ => false

end Script

/-- A program for streams of records. -/
structure Script where
  name : String
  vars : OrderedMap String String
  rules : List Script.Rule
  maps : OrderedMap String Script.Table
  filters : OrderedMap String Filter
  deriving DecidableEq

end Recast
