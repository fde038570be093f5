import Recast.Morph.Program
import Recast.Proofs.Morph.Call
import Recast.Proofs.Morph.Starred
import Recast.Proofs.Result

/-!
# Faults — what can be wrong with a script

The faults of a script are those of its rules, rule by rule (`Morph.foldl_addRule_snd`), and if there are
none, the first source whose regular expression is too large (`Morph.ofScript_eq_error`).  A function
that has the attributes it requires and the tables that these name can only complain about the texts
of attributes: `Function.onlyText_ofCall`.
-/

namespace Recast

/-! ## Complaints about texts -/

/-- A complaint about the text of an attribute. -/
def ArgumentError.AboutText : ArgumentError → Prop
  | .invalidPattern _ | .invalidCase _ | .zeroOccurrence | .invalidReset _ => True
  | .invalidCount _ parameter _ => parameter ∈ ["start", "end", "only"]
  | .unknownFunction _ | .unknownCollector _ | .missing .. | .unknownMap .. => False

/-- If there is no result, the complaint is about the text of an attribute. -/
def OnlyText {α : Type} (x : Except ArgumentError α) : Prop :=
  ∀ e, x = .error e → e.AboutText

namespace OnlyText

variable {α β : Type}

theorem ok (a : α) : OnlyText (.ok a : Except ArgumentError α) := by
  rintro e ⟨⟩

theorem error {e : ArgumentError} (h : e.AboutText) : OnlyText (.error e : Except ArgumentError α) := by
  rintro e' ⟨⟩
  exact h

theorem bind {x : Except ArgumentError α} {f : α → Except ArgumentError β} (hx : OnlyText x)
    (hf : ∀ a, OnlyText (f a)) : OnlyText (x >>= f) := by
  cases x with
  | ok a => exact hf a
  | error e => exact error (hx e rfl)

end OnlyText

namespace Function

variable {f k : String} {as : OrderedMap String String} {maps : OrderedMap String Script.Table}

theorem onlyText_required (h : (as.get? k).isSome = true) : OnlyText (required f as k) := by
  obtain ⟨v, hv⟩ := Option.isSome_iff_exists.1 h
  rw [required, hv]
  exact .ok v

/-- A pattern that is given may only be one that cannot be read. -/
theorem onlyText_pattern (h : (as.get? k).isSome = true) : OnlyText (pattern f as k) := by
  refine .bind (onlyText_required h) fun v => ?_
  cases Pattern.ofText? v with
  | none => exact .error trivial
  | some r => exact .ok r

/-- A count may only have a text that is none. -/
theorem onlyText_count? (hk : k ∈ ["start", "end", "only"]) : OnlyText (count? f as k) := by
  unfold count?
  cases as.get? k with
  | none => exact .ok none
  | some v =>
      simp only
      cases Count.read Count.max64 (Text.trim v).toList with
      | ok n => exact .ok _
      | error e => exact .error hk

/-- A table that is named and there cannot be complained about. -/
theorem onlyText_table (h : (as.get? k).isSome = true)
    (hmaps : ∀ name, as.get? k = some name → (maps.get? name).isSome = true) :
    OnlyText (table f as maps k) := by
  obtain ⟨name, hname⟩ := Option.isSome_iff_exists.1 h
  obtain ⟨t, ht⟩ := Option.isSome_iff_exists.1 (hmaps name hname)
  rw [table_eq_ok hname ht]
  exact .ok _

/-- A function whose attributes are there, with the tables that they name, can only complain about
the texts of attributes. -/
theorem onlyText_ofCall {s : Signature} (hs : Signature.function? f = some s)
    (hrequired : ∀ k ∈ s.required, (as.get? k).isSome = true)
    (htables : ∀ k ∈ s.tables, ∀ name, as.get? k = some name → (maps.get? name).isSome = true) :
    OnlyText (ofCall maps ⟨f, as⟩) := by
  have hcheck := checkRequired_of_isSome hrequired
  obtain ⟨hmem, hname⟩ := mem_functions hs
  unfold ofCall
  simp only [hs, hcheck, ok_bind]
  -- one case for each signature, in their order
  simp only [Signature.functions, List.mem_cons, List.not_mem_nil, or_false] at hmem
  rcases hmem with rfl | rfl | rfl | rfl | rfl | rfl | rfl | rfl | rfl | rfl | rfl | rfl | rfl |
    rfl | rfl <;> subst hname
  all_goals simp only [List.forall_mem_cons, List.not_mem_nil, false_implies, implies_true,
    and_true] at hrequired htables ⊢
  · exact .ok _
  · refine .bind (onlyText_required hrequired) fun v => ?_
    -- the two cases there are, and any other text
    split
    · exact .ok _
    · exact .ok _
    · exact .error trivial
  · exact .bind (onlyText_required hrequired) fun v => .ok _
  · exact .ok _
  · exact .bind (onlyText_pattern hrequired.1) fun p =>
      .bind (onlyText_required hrequired.2) fun v => .ok _
  · exact .bind (onlyText_pattern hrequired) fun p => .ok _
  · exact .bind (onlyText_count? (by decide)) fun start =>
      .bind (onlyText_count? (by decide)) fun stop => .ok _
  · exact .bind (onlyText_table hrequired htables) fun t => .ok _
  · exact .bind (onlyText_table hrequired htables) fun t => .ok _
  · exact .bind (onlyText_table hrequired htables) fun t => .ok _
  · exact .bind (onlyText_table hrequired htables) fun t => .ok _
  · refine .bind (onlyText_count? (by decide)) fun only => ?_
    split
    · exact .error trivial
    · exact .ok _
  · exact .bind (onlyText_required hrequired) fun v => .ok _
  · exact .bind (onlyText_required hrequired) fun v => .ok _
  · exact .ok _

end Function

namespace Collector

/-- A collector whose attributes are there can only complain about the texts of attributes. -/
theorem onlyText_ofKind {kind : String} {as : OrderedMap String String} {s : Signature}
    (hs : Signature.collector? kind = some s)
    (hrequired : ∀ k ∈ s.required, (as.get? k).isSome = true) (inputs : List String) :
    OnlyText (ofKind kind as inputs) := by
  have hcheck := Function.checkRequired_of_isSome hrequired
  have hmem : s ∈ Signature.collectors := List.mem_of_find?_eq_some hs
  have hname : s.name = kind := by simpa using List.find?_some hs
  unfold ofKind
  simp only [hs, hcheck, ok_bind]
  simp only [Signature.collectors, List.mem_cons, List.not_mem_nil, or_false] at hmem
  -- of the three collectors only the second has attributes that can be at fault
  rcases hmem with rfl | rfl | rfl <;> subst hname
  all_goals simp only [List.forall_mem_cons, List.not_mem_nil, false_implies, implies_true,
    and_true] at hrequired ⊢
  · exact .ok _
  · cases as.get? "reset" with
    | none => exact .bind (Function.onlyText_required hrequired) fun v => .ok _
    | some r =>
        refine .bind ?_ fun clears => .bind (Function.onlyText_required hrequired) fun v => .ok _
        unfold readReset
        split
        · exact .ok _
        · exact .ok _
        · exact .error trivial
  · exact .ok _

end Collector

/-! ## The faults of rules -/

namespace Morph

variable {s : Script}

def dataIssues (s : Script) (r : Script.DataRule) : List CompileIssue :=
  (filterOf s (outputName r) r.filter).2 ++
    r.functions.flatMap fun call => (functionOf s (outputName r) call).2

def ruleIssues (s : Script) : Script.Rule → List CompileIssue
  | .data r => dataIssues s r
  | .collect r =>
      let (attributes_, issues) := resolve s.vars r.name r.attributes
      match Collector.ofKind r.kind attributes_ (r.inputs.map outputName) with
      | .error e => issues ++ [.script (.rule r.name r.kind (.argument e))]
      | .ok _ => issues ++ r.inputs.flatMap (dataIssues s)

/-- The faults met on the way to a pipe are those of its data rule. -/
theorem pipeOf_snd (r : Script.DataRule) (output : Pipe.Output) :
    (pipeOf s r output).2 = dataIssues s r := by
  simp [pipeOf, dataIssues, List.flatMap_map]

/-- A rule adds its own faults, whatever has been added before. -/
theorem addRule_snd (m : Checked Morph) (r : Script.Rule) :
    (addRule s m r).2 = m.2 ++ ruleIssues s r := by
  cases r with
  | data r => simp [addRule, addPipes, ruleIssues, pipeOf_snd]
  | collect r =>
      rw [addRule, ruleIssues]
      simp only
      cases Collector.ofKind r.kind (resolve s.vars r.name r.attributes).1
        (r.inputs.map outputName) with
      | error e => simp
      | ok c => simp [addPipes, List.flatMap_map, pipeOf_snd]

/-- Rules add their faults one after the other. -/
theorem foldl_addRule_snd (rules : List Script.Rule) (m : Checked Morph) :
    (rules.foldl (addRule s) m).2 = m.2 ++ rules.flatMap (ruleIssues s) := by
  induction rules generalizing m with
  | nil => simp
  | cons r rules ih =>
      calc ((r :: rules).foldl (addRule s) m).2
          = (addRule s m r).2 ++ rules.flatMap (ruleIssues s) := by rw [List.foldl_cons, ih]
        _ = (m.2 ++ ruleIssues s r) ++ rules.flatMap (ruleIssues s) := by rw [addRule_snd]
        _ = m.2 ++ (r :: rules).flatMap (ruleIssues s) := by
            rw [List.flatMap_cons, List.append_assoc]

/-- A script cannot be run because of the faults of its rules, or because the regular expression of a
source is too large. -/
theorem ofScript_eq_error {e : CompileError} (h : ofScript s = .error e) :
    e.issues = s.rules.flatMap (ruleIssues s) ∨
      ∃ source, e.issues = [.script (.sourcePattern source)] ∧ '*' ∈ source.toList ∧
        Pattern.maxWeight < source.toList.length + 2 * source.toList.count '*' + 2 := by
  have hissues := foldl_addRule_snd (s := s) s.rules (⟨[], []⟩, [])
  unfold ofScript at h
  cases hrules : s.rules.foldl (addRule s) (⟨[], []⟩, []) with
  | mk read issues =>
      rw [hrules] at h hissues
      -- an issue refuses the script before any pattern is looked at
      cases issues with
      | cons issue rest =>
          obtain rfl := Except.error.inj h
          exact .inl hissues
      | nil =>
          simp only at h
          cases hfind : read.pipes.find? fun p => !Source.isReadable p.source with
          | none =>
              rw [hfind] at h
              cases h
          | some p =>
              rw [hfind] at h
              obtain rfl := Except.error.inj h
              have hp := List.find?_some hfind
              rw [Bool.not_eq_true', Bool.eq_false_iff, Ne, Source.isReadable_iff] at hp
              obtain ⟨hstar, hsize⟩ := Classical.not_imp.1 hp
              exact .inr ⟨p.source, rfl, hstar, Nat.lt_of_not_le hsize⟩

end Morph
end Recast
