import Recast.OrderedMap

/-!
# Component — the nodes of a job

A job is a list of components wired by their ids.  A *source* reads values from a path of the
record, a *target* writes them to a path of the result; *functions* change single values and
*collectors* gather the values of several inputs.

* `Kind`, `Dialect` — the closed choices, with the words they are written with;
* `Parameter` — a named value, or a block of named parameters;
* `Component`, `Job`.
-/

namespace Recast

/-! ## Kinds and dialects -/

inductive Kind where
  | source
  | target
  | function
  | collector
  deriving DecidableEq, Repr

namespace Kind

def word : Kind → String
  | .source => "source"
  | .target => "target"
  | .function => "fun"
  | .collector => "extended"

/-- A text with its ASCII capitals made small. -/
def lowered (s : String) : String :=
  String.ofList (s.toList.map Char.toLower)

/-- The kind that an author means: case does not count, and `function` may be spelled out. -/
def ofAuthored? (s : String) : Option Kind :=
  match lowered s with
  | "source" => some .source
  | "target" => some .target
  | "fun" => some .function
  | "function" => some .function
  | "extended" => some .collector
  | _ => none

def ofWord? : String → Option Kind
  | "source" => some .source
  | "target" => some .target
  | "fun" => some .function
  | "extended" => some .collector
  | _ => none

end Kind

inductive Dialect where
  | regex
  | boolean
  deriving DecidableEq, Repr

namespace Dialect

def word : Dialect → String
  | .regex => "regex"
  | .boolean => "boolean"

def ofWord? : String → Option Dialect
  | "regex" => some .regex
  | "boolean" => some .boolean
  | _ => none

def unknownMessage (word : String) : String :=
  s!"unknown filter dialect '{word}'"

end Dialect

/-- A condition on values, as text in one of the dialects. -/
structure Filter where
  expression : String
  dialect : Dialect
  deriving DecidableEq, Repr

/-! ## Parameters -/

/-- A parameter: its data as text, or a block of parameters if `repeats`. -/
structure Parameter where
  name : String
  type : Option String
  data : Option String
  repeats : Bool
  parameters : List (String × Parameter)
  deriving Inhabited

namespace Parameter

def ofData (name data : String) : Parameter :=
  ⟨name, none, some data, false, []⟩

/-- A block of parameters, each keyed by its name. -/
def ofBlock (name : String) (nested : List Parameter) : Parameter :=
  ⟨name, none, none, true, Assoc.ofList (nested.map fun p => (p.name, p))⟩

end Parameter

/-- The named parameters of a component. -/
structure Payload where
  name : String
  parameters : OrderedMap String Parameter

namespace Payload

def data? (p : Payload) (name : String) : Option String :=
  (p.parameters.get? name).bind Parameter.data

end Payload

/-! ## Components and jobs -/

/-- A node of a job. -/
structure Component where
  id : String
  name : String
  kind : Kind
  payload : Payload
  inputs : List String
  outputs : List String
  filter : Option Filter

namespace Component

/-- The parameter that binds a source or target to a path. -/
def pathParameter : String := "path"

/-- The parameter that selects a function or collector. -/
def functionParameter : String := "function"

/-- The parameter by which a source keeps only the n-th value of a record. -/
def ordinalParameter : String := "ordinal"

def new (id : String) (kind : Kind) : Component :=
  ⟨id, id, kind, ⟨id, .empty⟩, [], [], none⟩

def withParameter (c : Component) (p : Parameter) : Component :=
  { c with payload := { c.payload with parameters := c.payload.parameters.put p.name p } }

/-- A component with the parameter that selects its path or its function. -/
def bound (id : String) (kind : Kind) (value : String) : Component :=
  let selector := match kind with
    | .source | .target => pathParameter
    | .function | .collector => functionParameter
  (new id kind).withParameter (.ofData selector value)

/-- The path that a source reads or a target writes. -/
def path (c : Component) : String :=
  (c.payload.data? pathParameter).getD c.name

/-- The function or collector that a component applies. -/
def function (c : Component) : String :=
  (c.payload.data? functionParameter).getD c.name

/-- The parameters that are handed to the function. -/
def arguments (c : Component) : List Parameter :=
  c.payload.parameters.values.filter fun p => p.name ≠ functionParameter

end Component

/-- Components in dependency order, with variables for their parameters. -/
structure Job where
  id : String
  name : String
  components : List Component
  vars : OrderedMap String String

namespace Job

def component? (j : Job) (id : String) : Option Component :=
  j.components.find? fun c => c.id = id

def ofKind (j : Job) (k : Kind) : List Component :=
  j.components.filter fun c => c.kind = k

def sources (j : Job) : List Component := j.ofKind .source

def targets (j : Job) : List Component := j.ofKind .target

end Job
end Recast
