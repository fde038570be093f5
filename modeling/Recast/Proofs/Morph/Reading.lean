import Recast.Morph.Program
import Recast.Proofs.OrderedMap
import Recast.Proofs.Result

/-!
# Reading — what a script without faults says

When a script has no faults, every name in it has been found: `Morph.PipeRead` says what pipe has
become of a data rule, and `Morph.CollectorRead` what collector of a collect rule.  A program has
these pipes and collectors in the order of the rules: `Morph.ofScript_read`.
-/

namespace Recast
namespace Morph

/-! ## Attributes -/

def fillText (vars : OrderedMap String String) (s : String) : String :=
  resolveText vars (Placeholder.parts '[' ']' s.toList)

def filled (vars : OrderedMap String String) (attributes : OrderedMap String String) :
    OrderedMap String String :=
  .ofList (attributes.toList.map fun a => (a.1, fillText vars a.2))

/-- Resolving attributes fills in the values of variables, whatever is reported. -/
theorem resolve_fst (vars : OrderedMap String String) (rule : String)
    (attributes : OrderedMap String String) :
    (resolve vars rule attributes).1 = filled vars attributes := by
  simp only [resolve, filled, List.map_map]
  rfl

/-- A filled attribute is the filled text of the attribute. -/
theorem get?_filled (vars attributes : OrderedMap String String) (k : String) :
    (filled vars attributes).get? k = (attributes.get? k).map (fillText vars) :=
  OrderedMap.get?_ofList_map (fillText vars) attributes k

/-! ## Pipes -/

def FilterRead (s : Script) (name : Option String) (filter : Option ValueFilter) : Prop :=
  match name with
  | none => filter = none
  | some n => ∃ f v, s.filters.get? n = some f ∧ ValueFilter.ofFilter f = .ok v ∧ filter = some v

/-- A function has been found and built with attributes in which the variables have values. -/
def FunctionRead (s : Script) (call : Script.Call) (f : Function) : Prop :=
  Function.ofCall s.maps ⟨call.name, filled s.vars call.attributes⟩ = .ok f

/-- A pipe is what has become of a data rule without faults. -/
structure PipeRead (s : Script) (r : Script.DataRule) (output : Pipe.Output) (p : Pipe) : Prop where
  source : p.source = r.source
  filter : FilterRead s r.filter p.filter
  functions : List.Forall₂ (FunctionRead s) r.functions p.functions
  output : p.output = output

variable {s : Script} {rule : String}

/-- A filter without faults has been found and read. -/
theorem filterOf_read {name : Option String} (h : (filterOf s rule name).2 = []) :
    FilterRead s name (filterOf s rule name).1 := by
  cases name with
  | none => rfl
  | some n =>
      simp only [filterOf] at h ⊢
      cases hf : s.filters.get? n with
      | none => simp [hf] at h
      | some f =>
          cases hv : ValueFilter.ofFilter f with
          | error e => simp [hf, hv] at h
          | ok v => exact ⟨f, v, hf, hv, by simp [hv]⟩

/-- A call without faults has a function. -/
theorem functionOf_read {call : Script.Call} (h : (functionOf s rule call).2 = []) :
    ∃ f, (functionOf s rule call).1 = some f ∧ FunctionRead s call f := by
  unfold functionOf at h ⊢
  by_cases hknown : (Signature.function? call.name).isNone = true
  · rw [if_pos hknown] at h
    cases h
  · rw [if_neg hknown] at h ⊢
    -- the attributes are checked as they are filled
    have hfst := resolve_fst s.vars rule call.attributes
    cases hresolve : resolve s.vars rule call.attributes with
    | mk attributes issues =>
        rw [hresolve] at h hfst
        obtain rfl : attributes = filled s.vars call.attributes := hfst
        simp only at h ⊢
        cases hf : Function.ofCall s.maps ⟨call.name, filled s.vars call.attributes⟩ with
        | error e => simp [hf] at h
        | ok f => exact ⟨f, rfl, hf⟩

/-- A data rule without faults has become a pipe. -/
theorem pipeOf_read {r : Script.DataRule} {output : Pipe.Output}
    (h : (pipeOf s r output).2 = []) : PipeRead s r output (pipeOf s r output).1 := by
  simp only [pipeOf, List.append_eq_nil_iff] at h
  obtain ⟨hfilter, hfunctions⟩ := h
  refine ⟨rfl, filterOf_read hfilter, ?_, rfl⟩
  simp only [pipeOf]
  -- a call with a fault has no function, so without faults none is left out
  generalize r.functions = calls at hfunctions
  induction calls with
  | nil => exact .nil
  | cons call rest ih =>
      simp only [List.map_cons, List.flatMap_cons, List.append_eq_nil_iff] at hfunctions
      obtain ⟨f, hf, hread⟩ := functionOf_read hfunctions.1
      rw [List.map_cons, List.filterMap_cons_some hf]
      exact .cons hread (ih hfunctions.2)

/-! ## Scripts -/

/-- The data rules of a script and where their values go, the places of collectors counted from
`place` on. -/
def wires (place : Nat) : List Script.Rule → List (Script.DataRule × Pipe.Output)
  | [] => []
  | .data r :: rest => (r, .emit (outputName r)) :: wires place rest
  | .collect r :: rest =>
      (r.inputs.map fun d => (d, .gather place (outputName d))) ++ wires (place + 1) rest

def collects (rules : List Script.Rule) : List Script.CollectRule :=
  rules.filterMap fun r => match r with
    | .data _ => none
    | .collect c => some c

/-- A collector is what has become of a collect rule without faults. -/
structure CollectorRead (s : Script) (r : Script.CollectRule) (c : NamedCollector) : Prop where
  name : c.name = r.name
  collector : Collector.ofKind r.kind (filled s.vars r.attributes) (r.inputs.map outputName) =
    .ok c.collector

/-- A data rule without faults adds a pipe. -/
theorem addRule_data_read {r : Script.DataRule} {x : Checked Morph}
    (h : (addRule s x (.data r)).2 = []) :
    x.2 = [] ∧ ∃ p, (addRule s x (.data r)).1 = ⟨x.1.pipes ++ [p], x.1.collectors⟩ ∧
      PipeRead s r (.emit (outputName r)) p := by
  simp only [addRule, addPipes, List.flatMap_singleton, List.append_eq_nil_iff] at h
  exact ⟨h.1, _, rfl, pipeOf_read h.2⟩

/-- A collect rule without faults adds a collector and a pipe for each of its inputs. -/
theorem addRule_collect_read {r : Script.CollectRule} {x : Checked Morph}
    (h : (addRule s x (.collect r)).2 = []) :
    x.2 = [] ∧ ∃ ps c, (addRule s x (.collect r)).1 = ⟨x.1.pipes ++ ps, x.1.collectors ++ [c]⟩ ∧
      List.Forall₂ (fun d p => PipeRead s d (.gather x.1.collectors.length (outputName d)) p)
        r.inputs ps ∧ CollectorRead s r c := by
  have hfst := resolve_fst s.vars r.name r.attributes
  simp only [addRule] at h ⊢
  rw [hfst] at h ⊢
  cases hkind : Collector.ofKind r.kind (filled s.vars r.attributes) (r.inputs.map outputName) with
  | error e => simp [hkind] at h
  | ok c =>
      simp only [hkind, addPipes, List.append_eq_nil_iff, List.flatMap_map,
        List.flatMap_eq_nil_iff] at h
      refine ⟨h.1.1, _, _, rfl, ?_, rfl, hkind⟩
      rw [List.map_map]
      refine List.forall₂_map_right_iff.2 (List.forall₂_same.2 fun d hd => ?_)
      exact pipeOf_read (h.2 d hd)

/-- Rules without faults add their pipes and collectors in their order. -/
theorem foldl_addRule_read {rules : List Script.Rule} {x : Checked Morph}
    (h : (rules.foldl (addRule s) x).2 = []) :
    x.2 = [] ∧ ∃ ps cs, (rules.foldl (addRule s) x).1 = ⟨x.1.pipes ++ ps, x.1.collectors ++ cs⟩ ∧
      List.Forall₂ (fun w p => PipeRead s w.1 w.2 p) (wires x.1.collectors.length rules) ps ∧
      List.Forall₂ (CollectorRead s) (collects rules) cs := by
  induction rules generalizing x with
  | nil => exact ⟨h, [], [], by simp, .nil, .nil⟩
  | cons r rest ih =>
      obtain ⟨hr, ps, cs, hrest, hpipes, hcollectors⟩ := ih h
      cases r with
      | data r =>
          obtain ⟨hx, p, hadded, hp⟩ := addRule_data_read hr
          rw [hadded] at hpipes
          refine ⟨hx, p :: ps, cs, ?_, .cons hp hpipes, hcollectors⟩
          rw [List.foldl_cons, hrest, hadded, List.append_assoc, List.singleton_append]
      | collect r =>
          obtain ⟨hx, ps', c, hadded, hps', hc⟩ := addRule_collect_read hr
          -- the rules behind count their collectors from one more
          rw [hadded, List.length_append, List.length_singleton] at hpipes
          refine ⟨hx, ps' ++ ps, c :: cs, ?_, ?_, .cons hc hcollectors⟩
          · rw [List.foldl_cons, hrest, hadded, List.append_assoc, List.append_assoc,
              List.singleton_append]
          · exact List.rel_append (List.forall₂_map_left_iff.2 hps') hpipes

/-- A script has a program if its rules have no faults and all that they listen to can be looked
up. -/
theorem ofScript_eq_ok {m : Morph} :
    ofScript s = .ok m ↔ s.rules.foldl (addRule s) (⟨[], []⟩, []) = (m, []) ∧
      ∀ p ∈ m.pipes, Source.isReadable p.source = true := by
  unfold ofScript
  cases s.rules.foldl (addRule s) (⟨[], []⟩, []) with
  | mk read issues =>
      cases issues with
      | cons issue rest => simp
      | nil =>
          simp only [Prod.mk.injEq, and_true]
          -- what the rules give is a program where every source can be read
          cases hfind : read.pipes.find? fun p => !Source.isReadable p.source with
          | none =>
              have hall : ∀ p ∈ read.pipes, Source.isReadable p.source = true := by
                intro p hp
                simpa using List.find?_eq_none.1 hfind p hp
              constructor
              · rintro ⟨⟩
                exact ⟨rfl, hall⟩
              · rintro ⟨rfl, -⟩
                rfl
          | some p =>
              refine iff_of_false (by simp) ?_
              rintro ⟨rfl, hall⟩
              have hp := List.find?_some hfind
              simp [hall p (List.mem_of_find?_eq_some hfind)] at hp

/-- The program of a script has a pipe for each data rule and a collector for each collect rule. -/
theorem ofScript_read {m : Morph} (h : ofScript s = .ok m) :
    List.Forall₂ (fun w p => PipeRead s w.1 w.2 p) (wires 0 s.rules) m.pipes ∧
      List.Forall₂ (CollectorRead s) (collects s.rules) m.collectors := by
  have hrules := (ofScript_eq_ok.1 h).1
  have hnone : (s.rules.foldl (addRule s) (⟨[], []⟩, [])).2 = [] := by rw [hrules]
  obtain ⟨-, ps, cs, hread, hpipes, hcollectors⟩ := foldl_addRule_read hnone
  rw [hrules] at hread
  obtain rfl : m = ⟨ps, cs⟩ := hread
  exact ⟨hpipes, hcollectors⟩

theorem wires_data (rs : List Script.DataRule) (place : Nat) :
    wires place (rs.map .data) = rs.map fun r => (r, .emit (outputName r)) := by
  induction rs with
  | nil => rfl
  | cons r rest ih => exact congrArg _ ih

/-- The program of data rules has one pipe for each. -/
theorem ofScript_data {rs : List Script.DataRule} {m : Morph}
    (hrules : s.rules = rs.map Script.Rule.data) (h : ofScript s = .ok m) :
    m.collectors = [] ∧
      List.Forall₂ (fun r p => PipeRead s r (.emit (outputName r)) p) rs m.pipes := by
  obtain ⟨hpipes, hcollectors⟩ := ofScript_read h
  have hnone : collects s.rules = [] := by simp [hrules, collects]
  rw [hnone] at hcollectors
  rw [hrules, wires_data, List.forall₂_map_left_iff] at hpipes
  exact ⟨List.forall₂_nil_left_iff.1 hcollectors, hpipes⟩

end Morph
end Recast
