import Recast.Compile.Issue
import Recast.Condition.Filter
import Recast.Morph.Collector
import Recast.Morph.Index
import Recast.Text.Placeholder

/-!
# Program — scripts that are ready to run

A script is ready to run when every reference in it has been resolved: variables in attributes,
names of filters and tables, names of functions and collectors.  `Morph.ofScript` resolves them all
or lists every fault, rule by rule; then it builds the index by which pipes are looked up.

* `Pipe` — a data rule: what it listens to, what it does to a value, and where the value goes;
* `Morph` — the pipes and the collectors of a script, in rule order.
-/

namespace Recast

/-- Where the values of a pipe go. -/
inductive Pipe.Output where
  | emit (name : String)
  /-- To a collector, given by its place, as one of its inputs. -/
  | gather (collector : Nat) (input : String)
  deriving DecidableEq, Repr

/-- A data rule that is ready to run. -/
structure Pipe where
  source : String
  filter : Option ValueFilter
  functions : List Function
  output : Pipe.Output

/-- A collector and the name under which it emits. -/
structure NamedCollector where
  name : String
  collector : Collector

/-- A script that is ready to run. -/
structure Morph where
  pipes : List Pipe
  collectors : List NamedCollector

namespace Morph

/-- A value together with the faults met on the way to it. -/
abbrev Checked (α : Type) := α × List CompileIssue

/-! ## Resolving names -/

def outputName (r : Script.DataRule) : String :=
  r.name.getD r.source

def resolveText (vars : OrderedMap String String) (ps : List Placeholder.Part) : String :=
  Placeholder.fill (fun n => (vars.get? n).getD "") ps

/-- The last name in a text that is no variable. -/
def missingVariable? (vars : OrderedMap String String) (ps : List Placeholder.Part) :
    Option String :=
  ((Placeholder.names ps).filter fun n => !vars.contains n).getLast?

def resolve (vars : OrderedMap String String) (rule : String)
    (attributes : OrderedMap String String) : Checked (OrderedMap String String) :=
  let parsed := attributes.toList.map fun a => (a.1, Placeholder.parts '[' ']' a.2.toList)
  (.ofList (parsed.map fun a => (a.1, resolveText vars a.2)),
    parsed.filterMap fun a => (missingVariable? vars a.2).map fun n =>
      .script (.rule rule a.1 (.unknownVariable n)))

def filterOf (s : Script) (rule : String) : Option String → Checked (Option ValueFilter)
  | none => (none, [])
  | some name =>
      match s.filters.get? name with
      | none => (none, [.script (.rule rule "filter" (.unknownFilter name))])
      | some f =>
          match ValueFilter.ofFilter f with
          | .ok v => (some v, [])
          | .error reason => (none, [.invalidFilter name reason])

def functionOf (s : Script) (rule : String) (call : Script.Call) : Checked (Option Function) :=
  -- the attributes of an unknown function are not looked at
  if (Signature.function? call.name).isNone then (none, [.unknownFunction rule call.name])
  else
    let (attributes_, issues) := resolve s.vars rule call.attributes
    match Function.ofCall s.maps ⟨call.name, attributes_⟩ with
    | .ok f => (some f, issues)
    | .error e => (none, issues ++ [.script (.rule rule call.name (.argument e))])

def pipeOf (s : Script) (r : Script.DataRule) (output : Pipe.Output) : Checked Pipe :=
  let (filter, issues) := filterOf s (outputName r) r.filter
  let functions := r.functions.map (functionOf s (outputName r))
  (⟨r.source, filter, functions.filterMap Prod.fst, output⟩,
    issues ++ functions.flatMap Prod.snd)

/-! ## From scripts to programs -/

def addPipes (m : Checked Morph) (ps : List (Checked Pipe)) : Checked Morph :=
  ({ m.1 with pipes := m.1.pipes ++ ps.map Prod.fst }, m.2 ++ ps.flatMap Prod.snd)

def addRule (s : Script) (m : Checked Morph) : Script.Rule → Checked Morph
  | .data r => addPipes m [pipeOf s r (.emit (outputName r))]
  | .collect r =>
      let inputs := r.inputs.map outputName
      let (attributes_, issues) := resolve s.vars r.name r.attributes
      match Collector.ofKind r.kind attributes_ inputs with
      | .error e => (m.1, m.2 ++ issues ++ [.script (.rule r.name r.kind (.argument e))])
      | .ok c =>
          -- the inputs refer to the collector by its place
          let place := m.1.collectors.length
          addPipes ({ m.1 with collectors := m.1.collectors ++ [⟨r.name, c⟩] }, m.2 ++ issues)
            (r.inputs.map fun d => pipeOf s d (.gather place (outputName d)))

def ofScript (s : Script) : Except CompileError Morph :=
  match s.rules.foldl (addRule s) (⟨[], []⟩, []) with
  | (m, []) =>
      match m.pipes.find? fun p => !Source.isReadable p.source with
      | none => .ok m
      | some p => .error ⟨[.script (.sourcePattern p.source)]⟩
  | (_, issues) => .error ⟨issues⟩

/-- The index of the pipes by what they listen to. -/
def index (m : Morph) : Index :=
  .ofSources (m.pipes.map Pipe.source)

end Morph
end Recast
