import Recast.Compile.Job
import Recast.Proofs.Job.WellFormed
import Mathlib.Data.List.Forall2
import Mathlib.Logic.Relation

/-!
# Chain — what the rules of a job stand for

A rule of a compiled script stands for a target or a collector of the job, and each of its readings
for a chain of functions that starts at a source or a collector.  This module says so without
following a compilation:

* `Component.call`, `Component.tables`, `Component.counting` — what a component leaves in a script;
* `Job.Chain` — where the chain of inputs that ends at a component starts, and through which
  functions it passes;
* `Component.reading` — the reading of a chain;
* `Job.RuleOf` — the rule of a target or a collector.
-/

namespace Recast

/-! ## What a component leaves in a script -/

namespace Component

def signature? (c : Component) : Option Signature :=
  (Signature.function? c.function).or (Signature.collector? c.function)

/-- The name under which the table of a parameter is stored. -/
def tableName (c : Component) (p : Parameter) : String :=
  c.id ++ "." ++ p.name

def entries? (c : Component) (p : Parameter) : Option (List Script.Entry) :=
  Draft.tableOf? (c.signature?.any fun s => s.isTable p.name) p

/-- The attribute that hands a parameter to a call: a table by its name, other data as it is. -/
def attribute? (c : Component) (p : Parameter) : Option (String × String) :=
  match c.entries? p with
  | some _ => some (p.name, c.tableName p)
  | none => p.data.map fun data => (p.name, data)

def table? (c : Component) (p : Parameter) : Option Script.Table :=
  (c.entries? p).map fun entries => ⟨c.tableName p, entries⟩

def call (c : Component) : Script.Call :=
  ⟨c.function, .ofList (c.arguments.filterMap c.attribute?)⟩

def tables (c : Component) : List Script.Table :=
  match c.kind with
  | .function | .collector => c.arguments.filterMap c.table?
  | .source | .target => []

/-- The filter of a source under its name. -/
def namedFilters (c : Component) : List (String × Filter) :=
  match c.kind with
  | .source => (c.filter.map fun f => (c.id, f)).toList
  | _ => []

/-- The call by which a source with an ordinal counts. -/
def counting (c : Component) : List Script.Call :=
  match c.payload.data? ordinalParameter with
  | some n => [⟨"occurrence", .ofList [("only", Text.trim n)]⟩]
  | none => []

/-- The reading of a chain from its start through functions, the closest to the start first. -/
def reading (start : Component) (through : List Component) : Script.DataRule :=
  let calls := through.map call
  match start.kind with
  | .source => ⟨start.path, none, start.filter.map fun _ => start.id, start.counting ++ calls⟩
  | _ => ⟨Draft.variable_ start.id, none, none, calls⟩

/-- The reading of a chain as a rule with a name. -/
def ruleNamed (name : String) (start : Component) (through : List Component) : Script.DataRule :=
  { reading start through with name := some name }

@[simp] theorem reading_nil_source {c : Component} (h : c.kind = .source) :
    c.reading [] = ⟨c.path, none, c.filter.map fun _ => c.id, c.counting⟩ := by
  simp [reading, h]

@[simp] theorem reading_nil_collector {c : Component} (h : c.kind = .collector) :
    c.reading [] = ⟨Draft.variable_ c.id, none, none, []⟩ := by
  simp [reading, h]

/-- One more function is called after those before it. -/
theorem reading_concat (start : Component) (through : List Component) (f : Component) :
    start.reading (through ++ [f]) =
      { start.reading through with functions := (start.reading through).functions ++ [f.call] } := by
  unfold reading
  cases start.kind <;> simp

end Component

/-! ## Chains -/

namespace Job

/-- The chain of inputs that ends at the component with an id starts at a component that is no
function, and passes through functions, the closest to the start first. -/
inductive Chain (j : Job) : String → Component → List Component → Prop where
  | start {id : String} {c : Component} (hc : j.component? id = some c)
      (hkind : c.kind = .source ∨ c.kind = .collector) : Chain j id c []
  | through {id input : String} {f c : Component} {fs : List Component}
      (hf : j.component? id = some f) (hkind : f.kind = .function) (hinput : f.inputs = [input])
      (rest : Chain j input c fs) : Chain j id c (fs ++ [f])

def Reads (j : Job) (reader read : Component) : Prop :=
  ∃ input ∈ reader.inputs, j.component? input = some read

/-- A component reads another one, or components that do. -/
def ReadsThrough (j : Job) : Component → Component → Prop :=
  Relation.TransGen j.Reads

variable {j : Job} {id : String} {c d : Component} {fs gs : List Component}

/-- A chain has one start and one list of functions. -/
theorem Chain.unique (h : j.Chain id c fs) (h' : j.Chain id d gs) : c = d ∧ fs = gs := by
  -- a function never starts a chain and what starts one is no function
  induction h generalizing d gs with
  | start hc hkind =>
      cases h' with
      | start hd _ => exact ⟨Option.some.inj (hc.symm.trans hd), rfl⟩
      | through hf hfkind _ _ =>
          obtain rfl := Option.some.inj (hc.symm.trans hf)
          rcases hkind with hkind | hkind <;> rw [hfkind] at hkind <;> cases hkind
  | through hf hfkind hinput _ ih =>
      cases h' with
      | start hd hkind =>
          obtain rfl := Option.some.inj (hf.symm.trans hd)
          rcases hkind with hkind | hkind <;> rw [hfkind] at hkind <;> cases hkind
      | through hf' _ hinput' rest' =>
          obtain rfl := Option.some.inj (hf.symm.trans hf')
          obtain rfl : _ = _ := (List.cons.inj (hinput.symm.trans hinput')).1
          obtain ⟨rfl, rfl⟩ := ih rest'
          exact ⟨rfl, rfl⟩

/-- A chain starts at a source or a collector. -/
theorem Chain.start_kind (h : j.Chain id c fs) : c.kind = .source ∨ c.kind = .collector := by
  induction h with
  | start _ hkind => exact hkind
  | through _ _ _ _ ih => exact ih

/-- A chain passes through functions of the job, and starts at a component of it. -/
theorem Chain.mem (h : j.Chain id c fs) :
    c ∈ j.components ∧ ∀ f ∈ fs, f ∈ j.components ∧ f.kind = .function := by
  induction h with
  | start hc _ => exact ⟨mem_of_component? hc, by simp⟩
  | through hf hkind _ _ ih =>
      refine ⟨ih.1, ?_⟩
      intro g hg
      rcases List.mem_append.1 hg with hg | hg
      · exact ih.2 g hg
      · obtain rfl := List.mem_singleton.1 hg
        exact ⟨mem_of_component? hf, hkind⟩

/-- What a component reads stands before it. -/
theorem rank_lt_of_reads (hj : j.WellFormed) (hc : c ∈ j.components)
    (h : j.Reads c d) :
    (j.components.map Component.id).idxOf d.id < (j.components.map Component.id).idxOf c.id := by
  obtain ⟨input, hinput, hd⟩ := h
  obtain ⟨before, after, hsplit⟩ := List.append_of_mem hc
  obtain ⟨e, he, hid⟩ := hj.backward before c after hsplit input hinput
  rw [← id_of_component? hd] at hid
  have hdistinct := hj.distinct
  rw [hsplit, List.map_append, List.map_cons] at hdistinct ⊢
  have hnew : c.id ∉ before.map Component.id := fun hmem =>
    (List.nodup_append.1 hdistinct).2.2 c.id hmem c.id List.mem_cons_self rfl
  have hmem : d.id ∈ before.map Component.id := hid ▸ List.mem_map_of_mem he
  rw [List.idxOf_append_of_mem hmem, List.idxOf_append_of_notMem hnew, List.idxOf_cons_self]
  exact Nat.lt_of_lt_of_le (List.idxOf_lt_length_of_mem hmem) (Nat.le_add_right _ _)

/-! ## Rules -/

/-- The rule named after an input that reads the chain ending there. -/
inductive InputRule (j : Job) (name input : String) : Script.DataRule → Prop where
  | of {start : Component} {through : List Component} (chain : j.Chain input start through) :
      InputRule j name input (start.ruleNamed name through)

/-- The rule of a target reads its input and is named by its path; the rule of a collector has an
input for each of its inputs, under the input's id. -/
inductive RuleOf (j : Job) : Component → Script.Rule → Prop where
  | target {t : Component} {input : String} {r : Script.DataRule} (hkind : t.kind = .target)
      (hinput : t.inputs = [input]) (rule : j.InputRule t.path input r) : RuleOf j t (.data r)
  | collector {c : Component} {rs : List Script.DataRule} (hkind : c.kind = .collector)
      (rules : List.Forall₂ (fun input r => j.InputRule input input r) c.inputs rs) :
      RuleOf j c (.collect ⟨c.function, Draft.variable_ c.id, c.call.attributes, rs⟩)

end Job
end Recast
