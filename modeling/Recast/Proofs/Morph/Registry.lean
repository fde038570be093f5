import Recast.Proofs.Morph.Faults
import Recast.Proofs.Morph.Reading

/-!
# Registry — the functions that scripts can use

What is reported on a script depends on the functions and collectors that are registered: on the
names that are known, and on the calls that are refused.  `Morph.Registry.reports` says it for any of
them.  For the functions and collectors there are, it is what `Morph.ofScript` lists:
`Morph.Registry.ofScript_eq_error_iff`.
-/

namespace Recast

/-- Functions and collectors by their names.  A call that has no function is refused for a reason, and
so is a collector that cannot be built from its attributes and the names of its inputs. -/
structure Morph.Registry (ε φ κ : Type) where
  knows : String → Bool
  function : OrderedMap String Script.Table → Script.Call → Except ε φ
  collector : String → OrderedMap String String → List String → Except ε κ

def Morph.Registry.standard : Morph.Registry ArgumentError Function Collector where
  knows name := (Signature.function? name).isSome
  function := Function.ofCall
  collector := Collector.ofKind

namespace Script

/-- What is wrong with a part of a script. -/
inductive Problem (ε : Type) where
  | unknownVariable (rule key name : String)
  | unknownFilter (rule filter : String)
  | invalidFilter (filter reason : String)
  | unknownFunction (rule function : String)
  | refused (rule part : String) (reason : ε)
  /-- The regular expression of a source is too large. -/
  | sourcePattern (source : String)
  deriving DecidableEq

def Problem.issue : Problem ArgumentError → CompileIssue
  | .unknownVariable rule key name => .script (.rule rule key (.unknownVariable name))
  | .unknownFilter rule filter => .script (.rule rule "filter" (.unknownFilter filter))
  | .invalidFilter filter reason => .invalidFilter filter reason
  | .unknownFunction rule function => .unknownFunction rule function
  | .refused rule part reason => .script (.rule rule part (.argument reason))
  | .sourcePattern source => .script (.sourcePattern source)

/-- The data rules of a rule: itself, or its inputs. -/
def Rule.dataRules : Rule → List DataRule
  | .data d => [d]
  | .collect r => r.inputs

/-- The data rules of a script, those that are inputs of collectors included. -/
def dataRules (s : Script) : List DataRule :=
  s.rules.flatMap Rule.dataRules

/-- The names in a text that are no variables, one for each reference. -/
def unknownNames (s : Script) (text : String) : List String :=
  (Placeholder.names (Placeholder.parts '[' ']' text.toList)).filter fun n => !s.vars.contains n

end Script

namespace Morph.Registry

open Script (Problem)

variable {ε φ κ : Type} (g : Registry ε φ κ) (s : Script)

/-! ## What is reported -/

/-- Of the references in an attribute, no more than the last unknown one is reported. -/
def attributeReports (rule : String) (attributes : OrderedMap String String) : List (Problem ε) :=
  attributes.toList.flatMap fun a =>
    (s.unknownNames a.2).getLast?.toList.map (.unknownVariable rule a.1)

def filterReports (rule : String) : Option String → List (Problem ε)
  | none => []
  | some name =>
      match s.filters.get? name with
      | none => [.unknownFilter rule name]
      | some f =>
          match ValueFilter.ofFilter f with
          | .ok _ => []
          | .error reason => [.invalidFilter name reason]

def refusal {α : Type} (rule part : String) : Except ε α → List (Problem ε)
  | .ok _ => []
  | .error reason => [.refused rule part reason]

def functionOf (call : Script.Call) : Except ε φ :=
  g.function s.maps ⟨call.name, Morph.filled s.vars call.attributes⟩

def collectorOf (r : Script.CollectRule) : Except ε κ :=
  g.collector r.kind (Morph.filled s.vars r.attributes) (r.inputs.map Morph.outputName)

/-- The reports on a call: the attributes of an unknown function are not looked at. -/
def callReports (rule : String) (call : Script.Call) : List (Problem ε) :=
  if g.knows call.name then
    attributeReports s rule call.attributes ++ refusal rule call.name (g.functionOf s call)
  else [.unknownFunction rule call.name]

/-- The reports on a data rule, its source aside. -/
def dataReports (d : Script.DataRule) : List (Problem ε) :=
  filterReports s (Morph.outputName d) d.filter ++
    d.functions.flatMap (g.callReports s (Morph.outputName d))

/-- The reports on a rule: the inputs of a collector that is refused are not looked at. -/
def ruleReports : Script.Rule → List (Problem ε)
  | .data d => g.dataReports s d
  | .collect r =>
      attributeReports s r.name r.attributes ++
        match g.collectorOf s r with
        | .ok _ => r.inputs.flatMap (g.dataReports s)
        | .error reason => [.refused r.name r.kind reason]

/-- The reports on a script: those on its rules, and if there are none, the first source whose regular
expression is too large. -/
def reports : List (Problem ε) :=
  match s.rules.flatMap (g.ruleReports s) with
  | [] =>
      (s.dataRules.find? fun d => !Source.isReadable d.source).toList.map fun d =>
        .sourcePattern d.source
  | ps => ps

/-! ## The standard functions and collectors -/

section Standard

variable {s}

/-- The reports on attributes are those that resolving them gives. -/
theorem map_attributeReports (rule : String) (attributes : OrderedMap String String) :
    (attributeReports s rule attributes).map Problem.issue =
      (Morph.resolve s.vars rule attributes).2 := by
  rw [attributeReports, Morph.resolve, List.filterMap_eq_flatMap_toList, List.flatMap_map,
    List.map_flatMap]
  refine List.flatMap_congr fun a _ => ?_
  simp only [Script.unknownNames, Morph.missingVariable?, List.map_map]
  cases ((Placeholder.names (Placeholder.parts '[' ']' a.2.toList)).filter
    fun n => !s.vars.contains n).getLast? <;> rfl

/-- The reports on a filter are those that reading it gives. -/
theorem map_filterReports (rule : String) (filter : Option String) :
    (filterReports s rule filter).map Problem.issue = (Morph.filterOf s rule filter).2 := by
  cases filter with
  | none => rfl
  | some name =>
      simp only [filterReports, Morph.filterOf]
      cases s.filters.get? name with
      | none => rfl
      | some f =>
          simp only
          cases ValueFilter.ofFilter f <;> rfl

/-- The reports on a call are those that building its function gives. -/
theorem map_callReports (rule : String) (call : Script.Call) :
    (standard.callReports s rule call).map Problem.issue = (Morph.functionOf s rule call).2 := by
  have hfst := Morph.resolve_fst s.vars rule call.attributes
  have hsnd := map_attributeReports (s := s) rule call.attributes
  unfold callReports Morph.functionOf
  cases hknown : Signature.function? call.name with
  | none =>
      rw [if_neg (by simp [standard, hknown])]
      rfl
  | some signature =>
      rw [if_pos (by simp [standard, hknown]), if_neg (by simp), List.map_append, hsnd,
        functionOf, ← hfst]
      simp only [standard]
      cases Function.ofCall s.maps ⟨call.name, (Morph.resolve s.vars rule call.attributes).1⟩ with
      | ok f => exact List.append_nil _
      | error e => rfl

/-- The reports on a data rule are the faults of its pipe. -/
theorem map_dataReports (d : Script.DataRule) :
    (standard.dataReports s d).map Problem.issue = Morph.dataIssues s d := by
  simp only [dataReports, Morph.dataIssues, List.map_append, List.map_flatMap, map_filterReports,
    map_callReports]

/-- The reports on a rule are the faults that it adds to a program. -/
theorem map_ruleReports (r : Script.Rule) :
    (standard.ruleReports s r).map Problem.issue = Morph.ruleIssues s r := by
  cases r with
  | data d => exact map_dataReports d
  | collect r =>
      simp only [ruleReports, Morph.ruleIssues, collectorOf, List.map_append, map_attributeReports,
        Morph.resolve_fst, standard]
      cases Collector.ofKind r.kind (Morph.filled s.vars r.attributes)
        (r.inputs.map Morph.outputName) with
      | error e => rfl
      | ok c =>
          simp only [List.map_flatMap]
          exact congrArg _ (List.flatMap_congr fun d _ => map_dataReports d)

/-- Wires are those of the data rules. -/
theorem map_wires (place : Nat) (rules : List Script.Rule) :
    (Morph.wires place rules).map Prod.fst = rules.flatMap Script.Rule.dataRules := by
  induction rules generalizing place with
  | nil => rfl
  | cons r rest ih =>
      cases r with
      | data d =>
          rw [Morph.wires, List.map_cons, ih]
          rfl
      | collect r =>
          rw [Morph.wires, List.map_append, ih, List.map_map, List.flatMap_cons]
          exact congrArg (· ++ _) (List.map_id _)

/-- If nothing is wrong with the rules, the pipes listen to the sources of the data rules. -/
theorem map_source_pipes (h : (s.rules.foldl (Morph.addRule s) (⟨[], []⟩, [])).2 = []) :
    (s.rules.foldl (Morph.addRule s) (⟨[], []⟩, [])).1.pipes.map Pipe.source =
      s.dataRules.map Script.DataRule.source := by
  obtain ⟨-, ps, cs, hread, hpipes, -⟩ := Morph.foldl_addRule_read h
  have hsources : List.Forall₂ (· = ·) (ps.map Pipe.source)
      ((Morph.wires 0 s.rules).map (Script.DataRule.source ∘ Prod.fst)) := by
    rw [List.forall₂_map_left_iff, List.forall₂_map_right_iff]
    exact hpipes.flip.imp fun p w hp => hp.source
  rw [List.forall₂_eq_eq_eq] at hsources
  calc (s.rules.foldl (Morph.addRule s) (⟨[], []⟩, [])).1.pipes.map Pipe.source
      = ps.map Pipe.source := by rw [hread, List.nil_append]
    _ = (Morph.wires 0 s.rules).map (Script.DataRule.source ∘ Prod.fst) := hsources
    _ = s.dataRules.map Script.DataRule.source := by
        rw [Script.dataRules, ← map_wires 0, List.map_map]

theorem error_eq_error_iff {α : Type} {issues : List CompileIssue} {e : CompileError} :
    (Except.error ⟨issues⟩ : Except CompileError α) = .error e ↔ e.issues = issues := by
  constructor
  · rintro ⟨⟩
    rfl
  · rintro rfl
    rfl

/-- With the standard functions and collectors, a script cannot be run if there are reports on it, and
then because of these. -/
theorem ofScript_eq_error_iff {e : CompileError} : Morph.ofScript s = .error e ↔
    standard.reports s ≠ [] ∧ e.issues = (standard.reports s).map Problem.issue := by
  have hissues := Morph.foldl_addRule_snd (s := s) s.rules (⟨[], []⟩, [])
  have hmap : s.rules.flatMap (Morph.ruleIssues s) =
      (s.rules.flatMap (standard.ruleReports s)).map Problem.issue := by
    rw [List.map_flatMap]
    exact List.flatMap_congr fun r _ => (map_ruleReports r).symm
  have hsources := map_source_pipes (s := s)
  rw [hmap, List.nil_append] at hissues
  unfold Morph.ofScript reports
  generalize s.rules.foldl (Morph.addRule s) (⟨[], []⟩, []) = added at hissues hsources ⊢
  obtain ⟨m, issues⟩ := added
  obtain rfl : issues = _ := hissues
  cases hrules : s.rules.flatMap (standard.ruleReports s) with
  | cons p ps =>
      simp only [List.map_cons, ne_eq, reduceCtorEq, not_false_eq_true, true_and]
      exact error_eq_error_iff
  | nil =>
      rw [hrules] at hsources
      -- the first pipe and the first data rule that cannot be looked up have the same source
      have hfind := congrArg (List.find? fun source => !Source.isReadable source) (hsources rfl)
      rw [List.find?_map, List.find?_map] at hfind
      simp only [Function.comp_def] at hfind
      simp only [List.map_nil]
      cases hp : m.pipes.find? fun p => !Source.isReadable p.source with
      | none =>
          rw [hp] at hfind
          simp [Option.map_eq_none_iff.1 hfind.symm]
      | some p =>
          rw [hp] at hfind
          obtain ⟨d, hd, hsource⟩ := Option.map_eq_some_iff.1 hfind.symm
          rw [hd]
          simp only [Option.toList_some, List.map_cons, List.map_nil, ne_eq, reduceCtorEq,
            not_false_eq_true, true_and, hsource]
          exact error_eq_error_iff

end Standard
end Morph.Registry
end Recast
