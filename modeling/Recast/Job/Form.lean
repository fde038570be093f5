import Recast.Job.Component
import Recast.Json.Shape
import Recast.Json.Printer

/-!
# Form — jobs as JSON documents

`Job.toJson` writes a job; missing types, data, filters and empty blocks are left out.
`Job.ofWritten?` reads one.
-/

namespace Recast

open Json (Written Piece)

/-! ## Writing -/

mutual
def Parameter.toJson : Parameter → Json
  | ⟨name, type, data, repeats, parameters⟩ =>
      .object ([("name", .string name)] ++
        (match type with
          | some t => [("type", .string t)]
          | none => []) ++
        (match data with
          | some d => [("data", .string d)]
          | none => []) ++
        [("repeat", .bool repeats)] ++
        match parameters with
        | [] => []
        | p :: rest => [("parameters", .object (Parameter.entriesJson (p :: rest)))])

def Parameter.entriesJson : List (String × Parameter) → List (String × Json)
  | [] => []
  | p :: rest => Parameter.entryJson p :: Parameter.entriesJson rest

def Parameter.entryJson : String × Parameter → String × Json
  | (k, p) => (k, p.toJson)
end

def Filter.toJson (f : Filter) : Json :=
  .object [("expression", .string f.expression), ("type", .string f.dialect.word)]

def Job.variablesJson (vs : OrderedMap String String) : Json :=
  .object (vs.toList.map fun v => (v.1, .string v.2))

def Component.toJson (c : Component) : Json :=
  .object ([("id", .string c.id), ("name", .string c.name), ("type", .string c.kind.word),
    ("payload", .object [("name", .string c.payload.name),
      ("parameters", .object (Parameter.entriesJson c.payload.parameters.toList))]),
    ("inputs", .ofStrings c.inputs), ("outputs", .ofStrings c.outputs)] ++
    (c.filter.map fun f => ("filter", f.toJson)).toList)

def Job.toJson (j : Job) : Json :=
  .object ([("id", .string j.id), ("name", .string j.name),
    ("components", .array (j.components.map Component.toJson))] ++
    if j.vars.toList.isEmpty then [] else [("variables", variablesJson j.vars)])

/-! ## Reading -/

/-- What has been read of a parameter. -/
structure Parameter.Draft where
  name : Option String
  type : Option (Option String)
  data : Option (Option String)
  repeats : Option Bool
  parameters : Option (List (String × Parameter))

/-- The parameter, if its name has been read. -/
def Parameter.Draft.finish? (p : Parameter.Draft) : Option Parameter :=
  p.name.map fun name =>
    ⟨name, p.type.getD none, p.data.getD none, p.repeats.getD false, p.parameters.getD []⟩

mutual
def Parameter.ofWritten? : Written → Option Parameter
  | .object members => Parameter.ofMembers? ⟨none, none, none, none, none⟩ members
  | .array items => Parameter.ofItems? items
  | _ => none

def Parameter.ofMembers? (p : Parameter.Draft) : List (List Piece × Written) → Option Parameter
  | [] => p.finish?
  | m :: rest => do
      let q ← Parameter.member? p m
      Parameter.ofMembers? q rest

def Parameter.member? (p : Parameter.Draft) : List Piece × Written → Option Parameter.Draft
  | (k, w) => do
      match ← Written.decode? k with
      | "name" =>
          if p.name.isSome then none else return { p with name := some (← w.string?) }
      | "type" =>
          if p.type.isSome then none
          else return { p with type := some (← w.nullable? Written.string?) }
      | "data" =>
          if p.data.isSome then none
          else return { p with data := some (← w.nullable? Written.string?) }
      | "repeat" =>
          if p.repeats.isSome then none else return { p with repeats := some (← w.bool?) }
      | "parameters" =>
          if p.parameters.isSome then none
          else return { p with parameters := some (Assoc.ofList (← Parameter.block? w)) }
      | _ => return p

/-- Read a parameter from its fields in order; only the name must be there. -/
def Parameter.ofItems? : List Written → Option Parameter
  | [n] => do return ⟨← n.string?, none, none, false, []⟩
  | [n, t] => do return ⟨← n.string?, ← t.nullable? Written.string?, none, false, []⟩
  | [n, t, d] => do
      return ⟨← n.string?, ← t.nullable? Written.string?, ← d.nullable? Written.string?, false, []⟩
  | [n, t, d, r] => do
      return ⟨← n.string?, ← t.nullable? Written.string?, ← d.nullable? Written.string?,
        ← r.bool?, []⟩
  | [n, t, d, r, b] => do
      return ⟨← n.string?, ← t.nullable? Written.string?, ← d.nullable? Written.string?,
        ← r.bool?, Assoc.ofList (← Parameter.block? b)⟩
  | _ => none

def Parameter.block? : Written → Option (List (String × Parameter))
  | .object members => Parameter.entries? members
  | _ => none

def Parameter.entries? : List (List Piece × Written) → Option (List (String × Parameter))
  | [] => some []
  | m :: rest => do
      let p ← Parameter.entry? m
      let ps ← Parameter.entries? rest
      return p :: ps

def Parameter.entry? : List Piece × Written → Option (String × Parameter)
  | (k, w) => do return (← Written.decode? k, ← Parameter.ofWritten? w)
end

/-- Read a filter; the dialect is that of regular expressions if none is named. -/
def Filter.ofWritten? (w : Written) : Option Filter := do
  let f ← w.fields? ["expression", "type"]
  return ⟨← f.required "expression" Written.string?,
    ← f.defaulted "type" .regex fun w => w.choice?.bind Dialect.ofWord?⟩

def Job.vars? (w : Written) : Option (OrderedMap String String) :=
  (w.entries? Written.string?).map .ofList

def Payload.ofWritten? (w : Written) : Option Payload := do
  let f ← w.fields? ["name", "parameters"]
  return ⟨← f.defaulted "name" "" Written.string?,
    ← f.defaulted "parameters" .empty fun w => (Parameter.block? w).map .ofList⟩

def Component.ofWritten? (w : Written) : Option Component := do
  let f ← w.fields? ["id", "name", "type", "payload", "inputs", "outputs", "filter"]
  return {
    id := ← f.required "id" Written.string?
    name := ← f.required "name" Written.string?
    kind := ← f.required "type" fun w => w.choice?.bind Kind.ofWord?
    payload := ← f.required "payload" Payload.ofWritten?
    inputs := ← f.defaulted "inputs" [] (Written.list? Written.string?)
    outputs := ← f.defaulted "outputs" [] (Written.list? Written.string?)
    filter := ← f.defaulted "filter" none (Written.nullable? Filter.ofWritten?) }

def Job.ofWritten? (w : Written) : Option Job := do
  let f ← w.fields? ["id", "name", "components", "variables"]
  return {
    id := ← f.required "id" Written.string?
    name := ← f.required "name" Written.string?
    components := ← f.required "components" (Written.list? Component.ofWritten?)
    vars := ← f.defaulted "variables" .empty Job.vars? }

end Recast
