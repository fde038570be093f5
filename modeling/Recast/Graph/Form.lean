import Recast.Graph.Schema
import Recast.Json.Shape

/-!
# Form — the two JSON forms of a model

* identified, `Model.toJson`: one object per record, its URI keyed to its statements;
* raw, `Model.toRawJson`: the statements alone.

`stripRecords` turns the first form into the second, `Model.ofJson` reads the first form back.
-/

namespace Recast

open Json (Written)

/-! ## Statements -/

namespace Node

def toJson : Node → Json
  | .resource uri => .object [("type", .string "uri"), ("value", .string uri)]
  | .literal v => .object [("type", .string "literal"), ("value", .string v)]

def ofWritten? (w : Written) : Option Node := do
  let f ← w.fields? ["type", "value"]
  let kind ← f.required "type" Written.choice?
  let value ← f.required "value" Written.string?
  match kind with
  | "uri" => return .resource value
  | "literal" => return .literal value
  | _ => none

end Node

namespace Statement

def toJson (s : Statement) : Json :=
  .object [("subject", .string s.subject), ("predicate", .string s.predicate),
    ("object", s.object.toJson)]

/-- Why a document is no statement. -/
inductive ReadError where
  /-- It has not the fields of a statement. -/
  | shape
  | emptyPart (part : Part)
  deriving DecidableEq, Repr

def ReadError.message : ReadError → String
  | .shape => "<json>"
  | .emptyPart part => part.message

def ofWritten (w : Written) : Except ReadError Statement :=
  let parts : Option (String × String × Node) := do
    let f ← w.fields? ["subject", "predicate", "object"]
    let subject ← f.required "subject" Written.string?
    let predicate ← f.required "predicate" Written.string?
    let object ← f.required "object" Node.ofWritten?
    return (subject, predicate, object)
  match parts with
  | none => .error .shape
  | some (s, p, o) => (make? s p o).mapError .emptyPart

def ofJson (v : Json) : Except ReadError Statement :=
  ofWritten v.written

end Statement

/-! ## Models -/

namespace Model

/-- The identified form. -/
def toJson (m : Model) : Json :=
  .array (m.records.toList.map fun r =>
    .object [(r.1, .array (r.2.toList.map Statement.toJson))])

/-- The raw form. -/
def toRawJson (m : Model) : Json :=
  .array (m.statements.map Statement.toJson)

/-- Why a value is not the identified form of a model. -/
inductive ReadError where
  | notAnArray
  | notARecord (index : Nat)
  | invalidStatement (record : String) (position : Nat) (cause : Statement.ReadError)
  deriving DecidableEq, Repr

def ReadError.message : ReadError → String
  | .notAnArray => "expected an array of records"
  | .notARecord index => s!"item {index} is not a single record URI keyed to a statement array"
  | .invalidStatement record position cause =>
      s!"statement {position} of record '{record}' is invalid: {cause.message}"

/-- Add the statements of a record, counted from `position`. -/
def readStatements (record : String) (m : Model) (position : Nat) :
    List Json → Except ReadError Model
  | [] => .ok m
  | v :: rest =>
      match Statement.ofJson v with
      | .error cause => .error (.invalidStatement record position cause)
      | .ok s => readStatements record (m.addStatement record s) (position + 1) rest

def readRecords (m : Model) (index : Nat) : List Json → Except ReadError Model
  | [] => .ok m
  | .object [(record, .array items)] :: rest => do
      let m' ← readStatements record (m.addRecord record) 0 items
      readRecords m' (index + 1) rest
  | _ :: _ => .error (.notARecord index)

/-- Read the identified form; the schema is derived from the statements. -/
def ofJson : Json → Except ReadError Model
  | .array items => do
      let m ← readRecords .empty 0 items
      return { m with schema := m.derivedSchema }
  | _ => .error .notAnArray

end Model

/-- The statements of a record of the identified form; any other value stays as it is. -/
def recordItems : Json → List Json
  | .object [(_, .array items)] => items
  | v => [v]

/-- Replace each record of an array by its statements. -/
def stripRecords : Json → Json
  | .array items => .array (items.flatMap recordItems)
  | v => v

end Recast
