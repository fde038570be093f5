import Recast.Compile.Check

/-!
# Draft — the rules of a job

Every target becomes a data rule.  Its chain of inputs is followed back to where it starts: at a
source, whose path the rule reads, or at a collector.  A collector becomes a collect rule under the
name of a variable, once, before the first rule that reads the variable.  The functions on the way
become calls, the one closest to the start first.

An input is looked up among the components before the one that reads it, nearest first; in a job
without faults of wiring it is there.  So following a chain always ends.
-/

namespace Recast

/-- The parts of a script that has not been finished. -/
structure Draft where
  rules : List Script.Rule
  maps : OrderedMap String Script.Table
  filters : OrderedMap String Filter
  /-- The collectors that have their rule. -/
  collected : List String

namespace Draft

def empty : Draft := ⟨[], .empty, .empty, []⟩

/-- The variable under which a collector emits. -/
def variable_ (id : String) : String :=
  "@" ++ id

/-! ## Calls -/

mutual
def blockEntries : List (String × Parameter) → List Script.Entry
  | [] => []
  | p :: rest => keyedEntry p :: blockEntries rest

def keyedEntry : String × Parameter → Script.Entry
  | (_, p) => blockEntry p

def blockEntry : Parameter → Script.Entry
  | ⟨name, _, data, _, parameters⟩ => ⟨name, data, blockEntries parameters⟩
end

/-- The table of a parameter: a block, or one written as JSON where a table is asked for. -/
def tableOf? (isTable : Bool) (p : Parameter) : Option (List Script.Entry) :=
  -- a table written as JSON goes before a block
  match (if isTable then p.data.bind Parameter.inlineTable? else none) with
  | some entries => some entries
  | none => if p.repeats then some (blockEntries p.parameters) else none

/-- Hand a parameter to a call; a table is stored and handed on by its name. -/
def addArgument (s : Option Signature) (component : String)
    (x : OrderedMap String String × Draft) (p : Parameter) : OrderedMap String String × Draft :=
  match tableOf? (s.any fun s => s.isTable p.name) p with
  | some entries =>
      let name := component ++ "." ++ p.name
      (x.1.put p.name name, { x.2 with maps := x.2.maps.put name ⟨name, entries⟩ })
  | none =>
      match p.data with
      | some data => (x.1.put p.name data, x.2)
      | none => x

def callOf (c : Component) (d : Draft) : Script.Call × Draft :=
  let s := (Signature.function? c.function).or (Signature.collector? c.function)
  let (attributes_, d) := c.arguments.foldl (addArgument s c.id) (.empty, d)
  (⟨c.function, attributes_⟩, d)

/-! ## Rules -/

def sourceRule (c : Component) (d : Draft) : Script.DataRule × Draft :=
  let calls := match c.payload.data? Component.ordinalParameter with
    | some n => [⟨"occurrence", .ofList [("only", Text.trim n)]⟩]
    | none => []
  match c.filter with
  | some f => (⟨c.path, none, some c.id, calls⟩, { d with filters := d.filters.put c.id f })
  | none => (⟨c.path, none, none, calls⟩, d)

/-- Close the rule of a collector whose inputs have been read. -/
def closeCollector (c : Component) (inputs : List Script.DataRule) (d : Draft) : Draft :=
  let (call, d) := callOf c d
  { d with
    rules := d.rules ++ [.collect ⟨call.name, variable_ c.id, call.attributes, inputs⟩]
    collected := c.id :: d.collected }

/-- The rule that reads a component, which is looked up in a list of components. -/
def ruleFrom : List Component → String → Draft → Except ScriptFault (Script.DataRule × Draft)
  | [], id, _ => .error (.vanished id)
  | c :: earlier, id, d =>
      if c.id ≠ id then ruleFrom earlier id d
      else match c.kind with
        | .source => .ok (sourceRule c d)
        | .target => .error (.targetFeeds c.id)
        | .function =>
            match c.inputs with
            | [] => .error (.noInput .function c.id)
            | input :: _ => do
                let (rule, d) ← ruleFrom earlier input d
                let (call, d) := callOf c d
                -- the calls closer to the start are there already
                return ({ rule with functions := rule.functions ++ [call] }, d)
        | .collector =>
            let rule : Script.DataRule := ⟨variable_ c.id, none, none, []⟩
            -- a collector that feeds several rules has one rule of its own
            if c.id ∈ d.collected then .ok (rule, d)
            else do
              -- the rules that the inputs need come in front of the rule of the collector
              let (inputs, d) ← c.inputs.foldlM (fun (x : List Script.DataRule × Draft) input => do
                let (r, d) ← ruleFrom earlier input x.2
                return (x.1 ++ [{ r with name := some input }], d)) ([], d)
              return (rule, closeCollector c inputs d)

def addTarget (components : List Component) (d : Draft) (target : Component) :
    Except ScriptFault Draft :=
  match target.inputs with
  | [] => .error (.noInput .target target.id)
  | input :: _ => do
      let (rule, d) ← ruleFrom components.reverse input d
      return { d with rules := d.rules ++ [.data { rule with name := some target.path }] }

end Draft

namespace Job

/-- The script of a job whose components can be compiled. -/
def draft (j : Job) : Except ScriptFault Script := do
  let d ← j.targets.foldlM (Draft.addTarget j.components) .empty
  return ⟨j.name, j.vars, d.rules, d.maps, d.filters⟩

end Job
end Recast
