import Recast.Job.Form
import Recast.Job.Wiring

/-!
# Description — jobs as authored

A description leaves out what can be filled in, spells kinds freely and may repeat keys.

* `Job.Description.ofText?` and `Job.Description.toJson` read and write it;
* `Job.Description.job` fills in what is missing, or lists every fault.

Faults are reported together: first those of types and repeated parameters, component by
component, then those of the wiring, less what merely follows from a component of unknown type.
-/

namespace Recast

open Json (Written Piece)

structure ParameterDescription where
  name : Option String
  type : Option String
  data : Option Json
  repeats : Bool
  parameters : List (String × ParameterDescription)

structure PayloadDescription where
  name : Option String
  parameters : List (String × ParameterDescription)

structure ComponentDescription where
  id : String
  name : Option String
  type : String
  inputs : List String
  outputs : List String
  parameters : List (String × ParameterDescription)
  payload : Option PayloadDescription
  filter : Option Filter

/-- A job as authored. -/
structure Job.Description where
  id : Option String
  name : String
  vars : OrderedMap String String
  components : List ComponentDescription

/-! ## Writing -/

namespace ParameterDescription

mutual
def toJson : ParameterDescription → Json
  | ⟨name, type, data, repeats, parameters⟩ =>
      .object [("name", .ofString? name), ("type", .ofString? type), ("data", data.getD .null),
        ("repeat", .bool repeats), ("parameters", .object (entriesJson parameters))]

/-- Keyed parameters, repeated keys included. -/
def entriesJson : List (String × ParameterDescription) → List (String × Json)
  | [] => []
  | p :: rest => entryJson p :: entriesJson rest

def entryJson : String × ParameterDescription → String × Json
  | (k, p) => (k, toJson p)
end

end ParameterDescription

def PayloadDescription.toJson (p : PayloadDescription) : Json :=
  .object [("name", .ofString? p.name),
    ("parameters", .object (ParameterDescription.entriesJson p.parameters))]

def ComponentDescription.toJson (c : ComponentDescription) : Json :=
  .object [("id", .string c.id), ("name", .ofString? c.name), ("type", .string c.type),
    ("inputs", .ofStrings c.inputs), ("outputs", .ofStrings c.outputs),
    ("parameters", .object (ParameterDescription.entriesJson c.parameters)),
    ("payload", (c.payload.map PayloadDescription.toJson).getD .null),
    ("filter", (c.filter.map Filter.toJson).getD .null)]

def Job.Description.toJson (d : Job.Description) : Json :=
  .object [("id", .ofString? d.id), ("name", .string d.name),
    ("variables", Job.variablesJson d.vars),
    ("components", .array (d.components.map ComponentDescription.toJson))]

/-! ## Reading -/

namespace ParameterDescription

/-- What has been read of a parameter. -/
structure Draft where
  name : Option (Option String)
  type : Option (Option String)
  data : Option (Option Json)
  repeats : Option Bool
  parameters : Option (List (String × ParameterDescription))

/-- The parameter; every field may be missing. -/
def Draft.finish (p : Draft) : ParameterDescription :=
  ⟨p.name.getD none, p.type.getD none, p.data.getD none, p.repeats.getD false,
    p.parameters.getD []⟩

mutual
def ofWritten? : Written → Option ParameterDescription
  | .object members => ofMembers? ⟨none, none, none, none, none⟩ members
  | .array items => ofItems? items
  | _ => none

def ofMembers? (p : Draft) : List (List Piece × Written) → Option ParameterDescription
  | [] => some p.finish
  | m :: rest => do
      let q ← member? p m
      ofMembers? q rest

def member? (p : Draft) : List Piece × Written → Option Draft
  | (k, w) => do
      match ← Written.decode? k with
      | "name" =>
          if p.name.isSome then none
          else return { p with name := some (← w.nullable? Written.string?) }
      | "type" =>
          if p.type.isSome then none
          else return { p with type := some (← w.nullable? Written.string?) }
      | "data" =>
          if p.data.isSome then none
          else return { p with data := some (← w.nullable? Written.value?) }
      | "repeat" =>
          if p.repeats.isSome then none else return { p with repeats := some (← w.bool?) }
      | "parameters" =>
          if p.parameters.isSome then none
          else return { p with parameters := some (← block? w) }
      | _ => return p

def ofItems? : List Written → Option ParameterDescription
  | [] => some ⟨none, none, none, false, []⟩
  | [n] => do return ⟨← n.nullable? Written.string?, none, none, false, []⟩
  | [n, t] => do
      return ⟨← n.nullable? Written.string?, ← t.nullable? Written.string?, none, false, []⟩
  | [n, t, d] => do
      return ⟨← n.nullable? Written.string?, ← t.nullable? Written.string?,
        ← d.nullable? Written.value?, false, []⟩
  | [n, t, d, r] => do
      return ⟨← n.nullable? Written.string?, ← t.nullable? Written.string?,
        ← d.nullable? Written.value?, ← r.bool?, []⟩
  | [n, t, d, r, b] => do
      return ⟨← n.nullable? Written.string?, ← t.nullable? Written.string?,
        ← d.nullable? Written.value?, ← r.bool?, ← block? b⟩
  | _ => none

def block? : Written → Option (List (String × ParameterDescription))
  | .object members => entries? members
  | _ => none

/-- Read keyed parameters; repeated keys are kept. -/
def entries? : List (List Piece × Written) → Option (List (String × ParameterDescription))
  | [] => some []
  | m :: rest => do
      let p ← entry? m
      let ps ← entries? rest
      return p :: ps

def entry? : List Piece × Written → Option (String × ParameterDescription)
  | (k, w) => do return (← Written.decode? k, ← ofWritten? w)
end

end ParameterDescription

def PayloadDescription.ofWritten? (w : Written) : Option PayloadDescription := do
  let f ← w.fields? ["name", "parameters"]
  return ⟨← f.defaulted "name" none (Written.nullable? Written.string?),
    ← f.defaulted "parameters" [] ParameterDescription.block?⟩

def ComponentDescription.ofWritten? (w : Written) : Option ComponentDescription := do
  let f ← w.fields?
    ["id", "name", "type", "inputs", "outputs", "parameters", "payload", "filter"]
  return {
    id := ← f.required "id" Written.string?
    name := ← f.defaulted "name" none (Written.nullable? Written.string?)
    type := ← f.required "type" Written.string?
    inputs := ← f.defaulted "inputs" [] (Written.list? Written.string?)
    outputs := ← f.defaulted "outputs" [] (Written.list? Written.string?)
    parameters := ← f.defaulted "parameters" [] ParameterDescription.block?
    payload := ← f.defaulted "payload" none (Written.nullable? PayloadDescription.ofWritten?)
    filter := ← f.defaulted "filter" none (Written.nullable? Filter.ofWritten?) }

namespace Job.Description

def ofWritten? (w : Written) : Option Job.Description := do
  let f ← w.fields? ["id", "name", "variables", "components"]
  return {
    id := ← f.defaulted "id" none (Written.nullable? Written.string?)
    name := ← f.defaulted "name" "" Written.string?
    vars := ← f.defaulted "variables" .empty Job.vars?
    components := ← f.required "components" (Written.list? ComponentDescription.ofWritten?) }

def ofText? (s : String) : Option Job.Description :=
  (Written.ofText? s).bind ofWritten?

end Job.Description

/-! ## Filling in -/

namespace ParameterDescription

/-- Data as text: a string as it is, anything else but null as JSON text. -/
def dataText? : Json → Option String
  | .null => none
  | .string s => some s
  | v => some v.compact

mutual
/-- A parameter with the name it is keyed by, unless it has one of its own. -/
def parameter (component key : String) : ParameterDescription → Parameter × List Issue
  | ⟨name, type, data, repeats, parameters⟩ =>
      let (nested, issues) :=
        entries component (fun n => s!"{key}.{n}") [] parameters
      (⟨name.getD key, type, data.bind dataText?, repeats, nested⟩, issues)

/-- Parameters keyed by their names, behind those that are there already. -/
def entries (component : String) (label : String → String) (done : List (String × Parameter)) :
    List (String × ParameterDescription) → List (String × Parameter) × List Issue
  | [] => (done, [])
  | p :: rest =>
      let (q, inner) := entry component p
      -- the parameter that came first is kept
      if (Assoc.get? q.name done).isSome then
        let (all, later) := entries component label done rest
        (all, inner ++ .duplicateParameter component (label q.name) :: later)
      else
        let (all, later) := entries component label (Assoc.put q.name q done) rest
        (all, inner ++ later)

def entry (component : String) : String × ParameterDescription → Parameter × List Issue
  | (k, p) => parameter component k p
end

end ParameterDescription

namespace ComponentDescription

/-- The component of a known kind, and the faults of its parameters. -/
def component (c : ComponentDescription) (kind : Kind) : Component × List Issue :=
  let payload := c.payload.getD ⟨none, []⟩
  let name := (c.name.or payload.name).getD c.id
  let (parameters, issues) :=
    ParameterDescription.entries c.id (fun n => n) [] (payload.parameters ++ c.parameters)
  (⟨c.id, name, kind, ⟨payload.name.getD name, .ofList parameters⟩, c.inputs, c.outputs,
    c.filter⟩, issues)

/-- The component if its type is known, and the faults of its type or its parameters. -/
def typed (c : ComponentDescription) : Option Component × List Issue :=
  match Kind.ofAuthored? c.type with
  | none => (none, [.unknownComponentType c.id c.type])
  | some kind =>
      let (component, issues) := c.component kind
      (some component, issues)

end ComponentDescription

namespace Job.Description

/-- The job of the components whose type is known. -/
def known (d : Job.Description) : Job :=
  ⟨d.id.getD d.name, d.name, d.components.filterMap fun c => c.typed.1, d.vars⟩

/-- The ids of the components whose type is unknown. -/
def unknownIds (d : Job.Description) : List String :=
  (d.components.filter fun c => (Kind.ofAuthored? c.type).isNone).map ComponentDescription.id

/-- Whether a fault merely follows from a component of unknown type. -/
def isConsequence (j : Job) (unknown : List String) : Issue → Bool
  | .danglingInput _ input => input ∈ unknown
  | .danglingOutput _ output => output ∈ unknown
  | .unreachableTarget id =>
      (j.targets.any fun t => t.id = id) && (j.mentioned [] [id]).any fun i => i ∈ unknown
  | _ => false

def issues (d : Job.Description) : List Issue :=
  (d.components.flatMap fun c => c.typed.2) ++
    d.known.issues.filter fun i => !isConsequence d.known d.unknownIds i

/-- The job that is described, or every fault of the description. -/
def job (d : Job.Description) : Except (List Issue) Job :=
  match d.issues with
  | [] => .ok d.known
  | issues => .error issues

end Job.Description
end Recast
