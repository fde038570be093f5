import Recast.Compile.Issue
import Recast.Condition.Filter
import Recast.Json.Written
import Recast.Job.Wiring

/-!
# Check — components that cannot be compiled

Each component is checked by itself: ordinals and filters of sources, the number of inputs, and
functions with their parameters.  `Job.compileIssues` lists the faults of the wiring and then those
of the components.
-/

namespace Recast

/-! ## Tables inside parameters -/

namespace Parameter

/-- The text of a value: a string as it is, null as nothing. -/
def textOf? : Json → Option String
  | .null => none
  | .string s => some s
  | v => some v.compact

/-- The table written as JSON in the data of a parameter: an object gives keys and values, an array
gives keys. -/
def inlineTable? (data : String) : Option (List Script.Entry) :=
  match Json.parse? data with
  | some (.object members) => some (members.map fun m => ⟨m.1, textOf? m.2, []⟩)
  | some (.array items) => some ((items.filterMap textOf?).map fun k => ⟨k, none, []⟩)
  | _ => none

end Parameter

/-! ## Components -/

namespace Component

def isOrdinal (s : String) : Bool :=
  match Count.read Count.max64 (Text.trim s).toList with
  | .ok n => n ≠ 0
  | .error _ => false

def ordinalIssues (c : Component) : List CompileIssue :=
  match c.payload.data? ordinalParameter with
  | none => []
  | some raw =>
      if isOrdinal raw then []
      else [.invalidParameter c.id ordinalParameter s!"expected a positive integer, got '{raw}'"]

def filterIssues (c : Component) : List CompileIssue :=
  match c.filter with
  | none => []
  | some f =>
      match ValueFilter.ofFilter f with
      | .ok _ => []
      | .error reason => [.invalidFilter c.id reason]

/-- Whether more than one component is read where only one can be. -/
def inputIssues (c : Component) : List CompileIssue :=
  if 1 < c.inputs.length then [.tooManyInputs c.id c.kind c.inputs.length] else []

def provides (c : Component) (name : String) : Bool :=
  match c.payload.parameters.get? name with
  | some p => p.data.isSome || p.repeats
  | none => false

/-- Whether the parameter that names a table can be read as one. -/
def tableIssues (c : Component) (name : String) : List CompileIssue :=
  match c.payload.parameters.get? name with
  | none => []
  | some p =>
      if p.repeats then []
      else match p.data with
        | none => []
        | some data =>
            if (Parameter.inlineTable? data).isSome then []
            else [.invalidParameter c.id name
              "expected a repeat parameter or an inline JSON table"]

def signatureIssues (c : Component) : Option Signature → List CompileIssue
  | none => [.unknownFunction c.id c.function]
  | some s =>
      ((s.required.filter fun p => !c.provides p).map fun p =>
          .missingParameter c.id s.name p) ++
        s.tables.flatMap c.tableIssues

def compileIssues (c : Component) : List CompileIssue :=
  match c.kind with
  | .source => c.ordinalIssues ++ c.filterIssues
  | .target => c.inputIssues
  | .function => c.inputIssues ++ c.signatureIssues (Signature.function? c.function)
  | .collector => c.signatureIssues (Signature.collector? c.function)

end Component

/-- The faults of the wiring and of the components. -/
def Job.compileIssues (j : Job) : List CompileIssue :=
  j.issues.map .invalid ++ j.components.flatMap Component.compileIssues

end Recast
