import Recast.Job.Component

/-!
# Wiring — which jobs are well formed

`Job.issues` lists every fault in the wiring of a job, in the order of its components:

* ids that are used twice;
* per component, wires that its kind does not allow, inputs that are unknown or not declared
  before it, outputs that are unknown or do not read from it;
* targets that no source reaches.

`Job.mentioned` follows inputs from component to component, on any graph.
-/

namespace Recast

inductive Issue where
  | duplicateComponent (id : String)
  | duplicateParameter (component parameter : String)
  | unknownComponentType (component type : String)
  | sourceWithInputs (id : String)
  | targetWithOutputs (id : String)
  | unwired (component : String) (kind : Kind)
  | danglingInput (component input : String)
  | danglingOutput (component output : String)
  | forwardReference (component input : String)
  | asymmetricWiring (component output : String)
  | unreachableTarget (id : String)
  deriving DecidableEq, Repr

def Issue.message : Issue → String
  | .duplicateComponent id => s!"duplicate component id '{id}'"
  | .duplicateParameter c p => s!"component '{c}' declares parameter '{p}' more than once"
  | .unknownComponentType c t => s!"component '{c}' has unknown type '{t}'"
  | .sourceWithInputs id => s!"source component '{id}' must not have inputs"
  | .targetWithOutputs id => s!"target component '{id}' must not have outputs"
  | .unwired c k => s!"{k.word} component '{c}' needs at least one input and one output"
  | .danglingInput c i => s!"component '{c}' references unknown input '{i}'"
  | .danglingOutput c o => s!"component '{c}' references unknown output '{o}'"
  | .forwardReference c i =>
      s!"component '{c}' reads from '{i}', which is not declared before it"
  | .asymmetricWiring c o =>
      s!"component '{c}' lists output '{o}', which does not read from it"
  | .unreachableTarget id => s!"target component '{id}' is not reachable from any source"

namespace Job

/-! ## Faults of ids and wires -/

/-- The place of the last component with an id. -/
def position? (id : String) : List Component → Option Nat
  | [] => none
  | c :: rest =>
      match position? id rest with
      | some i => some (i + 1)
      | none => if c.id = id then some 0 else none

/-- A fault for each component whose id has been used before. -/
def duplicateIssues (seen : List String) : List Component → List Issue
  | [] => []
  | c :: rest =>
      (if c.id ∈ seen then [.duplicateComponent c.id] else []) ++
        duplicateIssues (c.id :: seen) rest

/-- The wires that the kind of a component does not allow. -/
def kindIssues (c : Component) : List Issue :=
  match c.kind with
  | .source => if c.inputs.isEmpty then [] else [.sourceWithInputs c.id]
  | .target => if c.outputs.isEmpty then [] else [.targetWithOutputs c.id]
  | .function | .collector =>
      if c.inputs.isEmpty || c.outputs.isEmpty then [.unwired c.id c.kind] else []

def inputIssues (j : Job) (i : Nat) (c : Component) (input : String) : List Issue :=
  match position? input j.components with
  | none => [.danglingInput c.id input]
  | some at_ => if i ≤ at_ then [.forwardReference c.id input] else []

def outputIssues (j : Job) (c : Component) (output : String) : List Issue :=
  match position? output j.components with
  | none => [.danglingOutput c.id output]
  | some at_ =>
      match j.components[at_]? with
      -- both ends of a wire have to name each other
      | some reader => if c.id ∈ reader.inputs then [] else [.asymmetricWiring c.id output]
      | none => []

def componentIssues (j : Job) (i : Nat) (c : Component) : List Issue :=
  kindIssues c ++ c.inputs.flatMap (j.inputIssues i c) ++ c.outputs.flatMap (j.outputIssues c)

/-- The faults of components, counted from place `i`. -/
def allComponentIssues (j : Job) (i : Nat) : List Component → List Issue
  | [] => []
  | c :: rest => j.componentIssues i c ++ allComponentIssues j (i + 1) rest

/-! ## Reachability -/

/-- The ids that sources reach, found in one pass over components in dependency order. -/
def reached (components : List Component) : List String :=
  components.foldl (fun ids c =>
    if c.kind = .source || c.inputs.any (fun i => i ∈ ids) then c.id :: ids else ids) []

/-- A fault for each target whose inputs are all declared but that no source reaches. -/
def reachIssues (j : Job) : List Issue :=
  let ids := reached j.components
  (j.targets.filter fun t =>
    t.inputs.all (fun i => (position? i j.components).isSome) && t.id ∉ ids).map
      fun t => .unreachableTarget t.id

def issues (j : Job) : List Issue :=
  duplicateIssues [] j.components ++ j.allComponentIssues 0 j.components ++ j.reachIssues

/-! ## Following inputs -/

def unvisited (j : Job) (visited : List String) : Nat :=
  (j.components.filter fun c => c.id ∉ visited).length

/-- Visiting a component leaves fewer of them; this is why collecting inputs ends. -/
theorem unvisited_cons_lt {j : Job} {visited : List String} {id : String} {c : Component}
    (hc : j.component? id = some c) (hn : id ∉ visited) :
    j.unvisited (id :: visited) < j.unvisited visited := by
  have hmem : c ∈ j.components := List.mem_of_find?_eq_some hc
  have hid : c.id = id := by simpa using List.find?_some hc
  have hfilter : j.components.filter (fun d => d.id ∉ id :: visited) =
      (j.components.filter fun d => d.id ∉ visited).filter fun d => d.id ≠ id := by
    rw [List.filter_filter]
    congr 1
    funext d
    simp [not_or]
  unfold unvisited
  rw [hfilter]
  -- the component with this id is the one that drops out
  refine List.length_filter_lt_length_iff_exists.2 ⟨c, ?_, ?_⟩
  · simp [hmem, hid, hn]
  · simp [hid]

/-- The inputs of the pending components and of all components that these read from. -/
def mentioned (j : Job) (visited : List String) : List String → List String
  | [] => []
  | id :: rest =>
      if _hn : id ∈ visited then mentioned j visited rest
      else match _hc : j.component? id with
        | none => mentioned j visited rest
        | some c => c.inputs ++ mentioned j (id :: visited) (c.inputs ++ rest)
termination_by pending => (j.unvisited visited, pending.length)
decreasing_by
  · exact Prod.Lex.right _ (by simp)
  · exact Prod.Lex.right _ (by simp)
  · exact Prod.Lex.left _ _ (unvisited_cons_lt _hc _hn)

end Job
end Recast
