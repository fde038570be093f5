import Mathlib.Data.List.Flatten
import Mathlib.Data.List.Perm.Basic
import Recast.Proofs.Morph.Registry

/-!
# Reported — problems that hide others

Beside what is reported on a script stands all that is wrong with it: `Morph.Registry.problems` has a
problem for every reference to an unknown variable, and whatever each data rule would have alone.
Nothing else is reported, but not all of it is, since some problems hide others;
`Morph.Registry.Apart` says when none does.  The main statement is `Morph.Registry.reports_together`.
-/

namespace Recast

/-! ## Lists that are left out of -/

section Lists

variable {α β : Type}

/-- Two lists of which elements are left out make the same list only if nothing is left out of
either. -/
theorem append_eq_append_iff_of_sublist {as as' bs bs' : List α} (h : as.Sublist bs)
    (h' : as'.Sublist bs') : as ++ as' = bs ++ bs' ↔ as = bs ∧ as' = bs' := by
  constructor
  · intro heq
    have hsum : as.length + as'.length = bs.length + bs'.length := by
      simpa only [List.length_append] using congrArg List.length heq
    have hle : as.length ≤ bs.length := h.length_le
    have hle' : as'.length ≤ bs'.length := h'.length_le
    have hlength : as.length = bs.length := by omega
    exact List.append_inj heq hlength
  · rintro ⟨hfront, hback⟩
    rw [hfront, hback]

/-- Lists are left out of others as a whole only if none is left out of. -/
theorem flatMap_eq_flatMap_iff_of_sublist {as : List α} {f f' : α → List β}
    (h : ∀ a ∈ as, (f a).Sublist (f' a)) :
    as.flatMap f = as.flatMap f' ↔ ∀ a ∈ as, f a = f' a := by
  induction as with
  | nil => simp
  | cons a rest ih =>
      have hrest := fun b hb => h b (List.mem_cons_of_mem a hb)
      rw [List.flatMap_cons, List.flatMap_cons, List.forall_mem_cons, ← ih hrest]
      exact append_eq_append_iff_of_sublist (h a List.mem_cons_self) (.flatMap_right rest hrest)

theorem getLast?_toList_sublist (as : List α) : as.getLast?.toList.Sublist as := by
  cases h : as.getLast? with
  | none => exact List.nil_sublist as
  | some a => exact List.singleton_sublist.2 (List.mem_of_getLast? h)

/-- The last element is all there is of a list with one element at most. -/
theorem getLast?_toList_eq_iff {as : List α} : as.getLast?.toList = as ↔ as.length ≤ 1 := by
  constructor
  · intro h
    rw [← h]
    cases as.getLast? <;> simp
  · intro h
    cases as with
    | nil => rfl
    | cons a rest =>
        obtain rfl : rest = [] := List.length_eq_zero_iff.1 (by simpa using h)
        rfl

theorem take_one_eq_iff {as : List α} : as.take 1 = as ↔ as.length ≤ 1 := by
  constructor
  · intro h
    calc as.length = (as.take 1).length := by rw [h]
      _ ≤ 1 := List.length_take_le 1 as
  · exact List.take_of_length_le

end Lists

namespace Script

/-- A script that has one data rule of another and whatever that refers to. -/
def alone (s : Script) (d : DataRule) : Script :=
  { s with rules := [.data d] }

end Script

namespace Morph.Registry

open Script (Problem)

variable {ε φ κ : Type} (g : Registry ε φ κ) (s : Script)

/-! ## What is wrong -/

/-- The references to unknown variables in the attributes of a rule. -/
def references (rule : String) (attributes : OrderedMap String String) : List (Problem ε) :=
  attributes.toList.flatMap fun a => (s.unknownNames a.2).map (.unknownVariable rule a.1)

def dataReferences (d : Script.DataRule) : List (Problem ε) :=
  d.functions.flatMap fun call => references s (Morph.outputName d) call.attributes

def ruleReferences : Script.Rule → List (Problem ε)
  | .data d => dataReferences s d
  | .collect r => references s r.name r.attributes ++ r.inputs.flatMap (dataReferences s)

def callProblems (rule : String) (call : Script.Call) : List (Problem ε) :=
  references s rule call.attributes ++
    if g.knows call.name then refusal rule call.name (g.functionOf s call)
    else [.unknownFunction rule call.name]

def dataProblems (d : Script.DataRule) : List (Problem ε) :=
  filterReports s (Morph.outputName d) d.filter ++
    d.functions.flatMap (g.callProblems s (Morph.outputName d))

/-- A source is a problem if nothing else is wrong with the rule. -/
def sourceProblems (d : Script.DataRule) : List (Problem ε) :=
  if (g.dataProblems s d).isEmpty && !Source.isReadable d.source then [.sourcePattern d.source]
  else []

def ruleProblems : Script.Rule → List (Problem ε)
  | .data d => g.dataProblems s d
  | .collect r =>
      references s r.name r.attributes ++ refusal r.name r.kind (g.collectorOf s r) ++
        r.inputs.flatMap (g.dataProblems s)

def problems : List (Problem ε) :=
  s.rules.flatMap (g.ruleProblems s) ++ s.dataRules.flatMap (g.sourceProblems s)

/-- No problem of a script hides another one. -/
structure Apart : Prop where
  /-- An attribute has one reference to an unknown variable at most, and that of an unknown function
  none. -/
  calls : ∀ d ∈ s.dataRules, ∀ call ∈ d.functions, ∀ a ∈ call.attributes.toList,
    (s.unknownNames a.2).length ≤ if g.knows call.name then 1 else 0
  collectors : ∀ r, .collect r ∈ s.rules → ∀ a ∈ r.attributes.toList,
    (s.unknownNames a.2).length ≤ 1
  /-- Nothing is wrong with the inputs of a collector that is refused. -/
  inputs : ∀ r, .collect r ∈ s.rules → ∀ reason, g.collectorOf s r = .error reason →
    ∀ d ∈ r.inputs, g.dataProblems s d = []
  /-- Where a source is a problem, it is the only one of the script. -/
  sources : ∀ d ∈ s.dataRules, g.sourceProblems s d ≠ [] → (g.problems s).length = 1

/-! ## What is reported is wrong -/

section Sublists

variable {g s}

/-- Of the references to unknown variables in attributes some may be left out, and nothing else is
reported. -/
theorem attributeReports_sublist (rule : String) (attributes : OrderedMap String String) :
    (attributeReports s rule attributes : List (Problem ε)).Sublist
      (references s rule attributes) := by
  refine .flatMap_right _ fun a _ => ?_
  have hlast : (s.unknownNames a.2).getLast?.toList.Sublist (s.unknownNames a.2) :=
    getLast?_toList_sublist _
  exact hlast.map _

/-- What is reported on a call is wrong with it. -/
theorem callReports_sublist (rule : String) (call : Script.Call) :
    (g.callReports s rule call).Sublist (g.callProblems s rule call) := by
  unfold callReports callProblems
  cases g.knows call.name with
  | true => exact (attributeReports_sublist _ _).append_right _
  | false => exact List.sublist_append_right _ _

/-- What is reported on a data rule is wrong with it. -/
theorem dataReports_sublist (d : Script.DataRule) :
    (g.dataReports s d).Sublist (g.dataProblems s d) := by
  have hcalls : (d.functions.flatMap (g.callReports s (Morph.outputName d))).Sublist
      (d.functions.flatMap (g.callProblems s (Morph.outputName d))) :=
    .flatMap_right _ fun call _ => callReports_sublist _ call
  exact hcalls.append_left _

/-- What is reported on a rule is wrong with it. -/
theorem ruleReports_sublist (r : Script.Rule) :
    (g.ruleReports s r).Sublist (g.ruleProblems s r) := by
  cases r with
  | data d => exact dataReports_sublist d
  | collect r =>
      rw [ruleReports, ruleProblems, List.append_assoc]
      refine (attributeReports_sublist _ _).append ?_
      cases g.collectorOf s r with
      | ok c => exact .flatMap_right _ fun d _ => dataReports_sublist d
      | error reason => exact List.sublist_append_left _ _

/-! ## What is wrong is reported, if only by another problem -/

/-- Attributes without reports have no references to unknown variables. -/
theorem references_eq_nil_of_attributeReports {rule : String}
    {attributes : OrderedMap String String}
    (h : (attributeReports s rule attributes : List (Problem ε)) = []) :
    (references s rule attributes : List (Problem ε)) = [] := by
  refine List.flatMap_eq_nil_iff.2 fun a ha => ?_
  have hnone := List.flatMap_eq_nil_iff.1 h a ha
  rw [List.map_eq_nil_iff, Option.toList_eq_nil_iff, List.getLast?_eq_none_iff] at hnone
  rw [hnone, List.map_nil]

/-- Nothing is wrong with a call without reports. -/
theorem callProblems_eq_nil {rule : String} {call : Script.Call}
    (h : g.callReports s rule call = []) : g.callProblems s rule call = [] := by
  unfold callReports at h
  unfold callProblems
  cases hknown : g.knows call.name with
  | false => simp [hknown] at h
  | true =>
      rw [hknown, if_pos rfl, List.append_eq_nil_iff] at h
      rw [if_pos rfl, references_eq_nil_of_attributeReports h.1, h.2, List.append_nil]

/-- Nothing is wrong with a data rule without reports. -/
theorem dataProblems_eq_nil {d : Script.DataRule} (h : g.dataReports s d = []) :
    g.dataProblems s d = [] := by
  rw [dataReports, List.append_eq_nil_iff, List.flatMap_eq_nil_iff] at h
  rw [dataProblems, h.1, List.nil_append, List.flatMap_eq_nil_iff]
  exact fun call hcall => callProblems_eq_nil (h.2 call hcall)

/-- Nothing is wrong with a rule without reports, sources aside. -/
theorem ruleProblems_eq_nil {r : Script.Rule} (h : g.ruleReports s r = []) :
    g.ruleProblems s r = [] := by
  cases r with
  | data d => exact dataProblems_eq_nil h
  | collect r =>
      rw [ruleReports, List.append_eq_nil_iff] at h
      rw [ruleProblems, references_eq_nil_of_attributeReports h.1, List.nil_append]
      cases hc : g.collectorOf s r with
      | error reason => simp [hc] at h
      | ok c =>
          rw [hc, List.flatMap_eq_nil_iff] at h
          rw [refusal, List.nil_append, List.flatMap_eq_nil_iff]
          exact fun d hd => dataProblems_eq_nil (h.2 d hd)

theorem flatMap_ruleProblems_eq_nil (h : s.rules.flatMap (g.ruleReports s) = []) :
    s.rules.flatMap (g.ruleProblems s) = [] := by
  rw [List.flatMap_eq_nil_iff] at h ⊢
  intro r hr
  exact ruleProblems_eq_nil (h r hr)

/-- Without reports on rules, nothing but sources can be a problem. -/
theorem problems_eq_sources (h : s.rules.flatMap (g.ruleReports s) = []) :
    g.problems s = s.dataRules.flatMap (g.sourceProblems s) := by
  rw [problems, flatMap_ruleProblems_eq_nil h, List.nil_append]

/-- What is wrong with data rules is wrong with the rules that they belong to. -/
theorem flatMap_dataProblems_sublist :
    (s.dataRules.flatMap (g.dataProblems s)).Sublist (s.rules.flatMap (g.ruleProblems s)) := by
  rw [Script.dataRules, List.flatMap_assoc]
  refine .flatMap_right _ fun r _ => ?_
  cases r with
  | data d => simp [Script.Rule.dataRules, ruleProblems]
  | collect r => exact List.sublist_append_right _ _

/-- Without reports on rules, the problems are the sources that are too large. -/
theorem flatMap_sourceProblems (h : s.rules.flatMap (g.ruleReports s) = []) :
    s.dataRules.flatMap (g.sourceProblems s) =
      (s.dataRules.filter fun d => !Source.isReadable d.source).map fun d =>
        .sourcePattern d.source := by
  have hnone := flatMap_dataProblems_sublist (g := g) (s := s)
  rw [flatMap_ruleProblems_eq_nil h, List.sublist_nil, List.flatMap_eq_nil_iff] at hnone
  generalize s.dataRules = ds at hnone ⊢
  induction ds with
  | nil => rfl
  | cons d rest ih =>
      rw [List.forall_mem_cons] at hnone
      rw [List.flatMap_cons, ih hnone.2, List.filter_cons, sourceProblems, hnone.1]
      cases Source.isReadable d.source <;> rfl

/-- Without reports on rules, the first problem is reported. -/
theorem reports_eq_take (h : s.rules.flatMap (g.ruleReports s) = []) :
    g.reports s = (g.problems s).take 1 := by
  calc g.reports s
      = (s.dataRules.find? fun d => !Source.isReadable d.source).toList.map fun d =>
          .sourcePattern d.source := by rw [reports, h]
    _ = ((s.dataRules.filter fun d => !Source.isReadable d.source).map fun d =>
          .sourcePattern d.source).take 1 := by
        rw [List.take_one, List.head?_map, List.head?_filter, Option.toList_map]
    _ = (g.problems s).take 1 := by rw [problems_eq_sources h, flatMap_sourceProblems h]

/-- If there are reports on rules, sources are not looked at. -/
theorem reports_eq_flatMap (h : s.rules.flatMap (g.ruleReports s) ≠ []) :
    g.reports s = s.rules.flatMap (g.ruleReports s) := by
  unfold reports
  split
  · exact absurd ‹_› h
  · rfl

/-- Nothing is reported but problems, and these in their order. -/
theorem reports_sublist : (g.reports s).Sublist (g.problems s) := by
  by_cases h : s.rules.flatMap (g.ruleReports s) = []
  · rw [reports_eq_take h]
    exact List.take_sublist 1 _
  · have hrules : (s.rules.flatMap (g.ruleReports s)).Sublist (s.rules.flatMap (g.ruleProblems s)) :=
      .flatMap_right _ fun r _ => ruleReports_sublist r
    rw [reports_eq_flatMap h]
    exact hrules.trans (List.sublist_append_left _ _)

/-- There are reports if and only if there are problems. -/
theorem reports_eq_nil_iff : g.reports s = [] ↔ g.problems s = [] := by
  constructor
  · intro hnone
    by_cases h : s.rules.flatMap (g.ruleReports s) = []
    · rw [reports_eq_take h] at hnone
      simpa using hnone
    · rw [reports_eq_flatMap h] at hnone
      exact absurd hnone h
  · intro hnone
    have hsublist : (g.reports s).Sublist (g.problems s) := reports_sublist
    rw [hnone] at hsublist
    exact List.sublist_nil.1 hsublist

/-- A data rule alone has the reports on it, and its source. -/
theorem reports_alone (d : Script.DataRule) :
    g.reports (s.alone d) = g.dataReports s d ++ g.sourceProblems s d := by
  have hrules : (s.alone d).rules.flatMap (g.ruleReports (s.alone d)) = g.dataReports s d :=
    List.flatMap_singleton _ _
  have hsource : (s.alone d).dataRules.flatMap (g.sourceProblems (s.alone d)) =
      g.sourceProblems s d :=
    List.flatMap_singleton _ _
  by_cases h : g.dataReports s d = []
  · -- nothing is wrong with the rule, so its source may be reported
    have hrule : (s.alone d).rules.flatMap (g.ruleReports (s.alone d)) = [] := hrules.trans h
    have hfirst : (g.sourceProblems s d).take 1 = g.sourceProblems s d := by
      rw [sourceProblems]
      split <;> rfl
    calc g.reports (s.alone d)
        = (g.sourceProblems s d).take 1 := by
          rw [reports_eq_take hrule, problems_eq_sources hrule, hsource]
      _ = g.dataReports s d ++ g.sourceProblems s d := by rw [hfirst, h, List.nil_append]
  · have hrule : (s.alone d).rules.flatMap (g.ruleReports (s.alone d)) ≠ [] := by rwa [hrules]
    have hsome : g.dataProblems s d ≠ [] := by
      intro hnone
      have hsublist := dataReports_sublist (g := g) (s := s) d
      rw [hnone] at hsublist
      exact h (List.sublist_nil.1 hsublist)
    have hreadable : g.sourceProblems s d = [] := by
      rw [sourceProblems, List.isEmpty_eq_false_iff.2 hsome]
      rfl
    rw [reports_eq_flatMap hrule, hrules, hreadable, List.append_nil]

/-! ## When nothing is left out -/

/-- No reference is left out if each attribute has one at most that is unknown. -/
theorem attributeReports_eq_iff (rule : String) (attributes : OrderedMap String String) :
    (attributeReports s rule attributes : List (Problem ε)) = references s rule attributes ↔
      ∀ a ∈ attributes.toList, (s.unknownNames a.2).length ≤ 1 := by
  unfold attributeReports references
  rw [flatMap_eq_flatMap_iff_of_sublist fun a _ => (getLast?_toList_sublist _).map _]
  refine forall₂_congr fun a _ => ?_
  rw [← getLast?_toList_eq_iff, List.map_inj_right fun n n' h => (Problem.unknownVariable.inj h).2.2]

theorem references_eq_nil_iff (rule : String) (attributes : OrderedMap String String) :
    (references s rule attributes : List (Problem ε)) = [] ↔
      ∀ a ∈ attributes.toList, (s.unknownNames a.2).length ≤ 0 := by
  simp [references]

/-- Nothing is left out of the reports on a call if no attribute has more unknown references than
are reported for it: one if the function is known, and none if not. -/
theorem callReports_eq_iff (rule : String) (call : Script.Call) :
    g.callReports s rule call = g.callProblems s rule call ↔
      ∀ a ∈ call.attributes.toList,
        (s.unknownNames a.2).length ≤ if g.knows call.name then 1 else 0 := by
  unfold callReports callProblems
  cases g.knows call.name with
  | true =>
      simp only [if_true, List.append_cancel_right_eq]
      exact attributeReports_eq_iff rule call.attributes
  | false =>
      simp only [Bool.false_eq_true, if_false]
      rw [← references_eq_nil_iff (ε := ε) rule, eq_comm, List.append_left_eq_self]

/-- Nothing is left out of the reports on a data rule if this is so for its calls. -/
theorem dataReports_eq_iff (d : Script.DataRule) :
    g.dataReports s d = g.dataProblems s d ↔
      ∀ call ∈ d.functions, ∀ a ∈ call.attributes.toList,
        (s.unknownNames a.2).length ≤ if g.knows call.name then 1 else 0 := by
  rw [dataReports, dataProblems, List.append_cancel_left_eq,
    flatMap_eq_flatMap_iff_of_sublist fun call _ => callReports_sublist _ call]
  exact forall₂_congr fun call _ => callReports_eq_iff _ call

theorem flatMap_dataReports_eq_iff (ds : List Script.DataRule) :
    ds.flatMap (g.dataReports s) = ds.flatMap (g.dataProblems s) ↔
      ∀ d ∈ ds, g.dataReports s d = g.dataProblems s d :=
  flatMap_eq_flatMap_iff_of_sublist fun d _ => dataReports_sublist d

/-- Nothing is left out of the reports on a collect rule if its attributes and its inputs let it,
and if nothing is wrong with the inputs of a collector that is refused. -/
theorem ruleReports_collect_eq_iff (r : Script.CollectRule) :
    g.ruleReports s (.collect r) = g.ruleProblems s (.collect r) ↔
      (∀ a ∈ r.attributes.toList, (s.unknownNames a.2).length ≤ 1) ∧
      (∀ d ∈ r.inputs, g.dataReports s d = g.dataProblems s d) ∧
      ∀ reason, g.collectorOf s r = .error reason → ∀ d ∈ r.inputs, g.dataProblems s d = [] := by
  have hattributes := attributeReports_eq_iff (ε := ε) (s := s) r.name r.attributes
  rw [ruleReports, ruleProblems, List.append_assoc]
  cases hc : g.collectorOf s r with
  | ok c =>
      rw [refusal, List.nil_append, append_eq_append_iff_of_sublist (attributeReports_sublist _ _)
        (.flatMap_right _ fun d _ => dataReports_sublist d), hattributes,
        flatMap_dataReports_eq_iff]
      simp
  | error reason =>
      simp only
      rw [refusal, append_eq_append_iff_of_sublist (attributeReports_sublist _ _)
        (List.sublist_append_left _ _), hattributes, eq_comm (a := [_]), List.append_right_eq_self,
        List.flatMap_eq_nil_iff]
      refine and_congr_right fun _ => ?_
      constructor
      · intro hnone
        constructor
        · -- an input with which nothing is wrong has no reports
          intro d hd
          have hreports := dataReports_sublist (g := g) (s := s) d
          rw [hnone d hd, List.sublist_nil] at hreports
          rw [hnone d hd, hreports]
        · intro _ _
          exact hnone
      · rintro ⟨-, hinputs⟩
        exact hinputs reason rfl

/-- All that is wrong with rules is reported if calls, collectors and inputs let it. -/
theorem flatMap_ruleReports_eq_iff :
    s.rules.flatMap (g.ruleReports s) = s.rules.flatMap (g.ruleProblems s) ↔
      (∀ d ∈ s.dataRules, g.dataReports s d = g.dataProblems s d) ∧
      ∀ r, .collect r ∈ s.rules → (∀ a ∈ r.attributes.toList, (s.unknownNames a.2).length ≤ 1) ∧
        ∀ reason, g.collectorOf s r = .error reason → ∀ d ∈ r.inputs, g.dataProblems s d = [] := by
  rw [flatMap_eq_flatMap_iff_of_sublist fun r _ => ruleReports_sublist r]
  constructor
  · intro h
    refine ⟨fun d hd => ?_, fun r hr => ?_⟩
    · -- a rule on data is reported for itself or with the collector it feeds
      obtain ⟨r, hr, hd⟩ := List.mem_flatMap.1 hd
      cases r with
      | data d' =>
          obtain rfl := List.mem_singleton.1 hd
          exact h _ hr
      | collect r => exact ((ruleReports_collect_eq_iff r).1 (h _ hr)).2.1 d hd
    · obtain ⟨hattributes, -, hinputs⟩ := (ruleReports_collect_eq_iff r).1 (h _ hr)
      exact ⟨hattributes, hinputs⟩
  · rintro ⟨hdata, hcollect⟩ r hr
    -- the rules on data of a rule are among all of them
    have hall : ∀ d ∈ r.dataRules, g.dataReports s d = g.dataProblems s d := fun d hd =>
      hdata d (List.mem_flatMap.2 ⟨r, hr, hd⟩)
    cases r with
    | data d => exact hall d (List.mem_singleton.2 rfl)
    | collect r =>
        exact (ruleReports_collect_eq_iff r).2 ⟨(hcollect r hr).1, hall, (hcollect r hr).2⟩

/-- Problems are apart if all that is wrong with rules is reported, and a source that is a problem is
the only one. -/
theorem apart_iff : g.Apart s ↔
    s.rules.flatMap (g.ruleReports s) = s.rules.flatMap (g.ruleProblems s) ∧
      ∀ d ∈ s.dataRules, g.sourceProblems s d ≠ [] → (g.problems s).length = 1 := by
  have hcalls : (∀ d ∈ s.dataRules, g.dataReports s d = g.dataProblems s d) ↔
      ∀ d ∈ s.dataRules, ∀ call ∈ d.functions, ∀ a ∈ call.attributes.toList,
        (s.unknownNames a.2).length ≤ if g.knows call.name then 1 else 0 :=
    forall₂_congr fun d _ => dataReports_eq_iff d
  rw [flatMap_ruleReports_eq_iff, hcalls]
  constructor
  · intro h
    have hcollect : ∀ r, .collect r ∈ s.rules →
        (∀ a ∈ r.attributes.toList, (s.unknownNames a.2).length ≤ 1) ∧
          ∀ reason, g.collectorOf s r = .error reason →
            ∀ d ∈ r.inputs, g.dataProblems s d = [] :=
      fun r hr => ⟨h.collectors r hr, h.inputs r hr⟩
    exact ⟨⟨h.calls, hcollect⟩, h.sources⟩
  · rintro ⟨⟨hdata, hcollect⟩, hsources⟩
    exact {
      calls := hdata
      collectors := fun r hr => (hcollect r hr).1
      inputs := fun r hr => (hcollect r hr).2
      sources := hsources }

/-- A script without reports on rules has one problem at most, unless a source hides another one. -/
theorem length_problems_le_one_iff (h : s.rules.flatMap (g.ruleReports s) = []) :
    (g.problems s).length ≤ 1 ↔
      ∀ d ∈ s.dataRules, g.sourceProblems s d ≠ [] → (g.problems s).length = 1 := by
  -- nothing is reported for a rule, so all problems are about sources
  have hproblems := problems_eq_sources h
  constructor
  · intro hle d hd hsome
    have hne : g.problems s ≠ [] := by
      intro hnone
      rw [hproblems, List.flatMap_eq_nil_iff] at hnone
      exact hsome (hnone d hd)
    have hpos : 0 < (g.problems s).length := List.length_pos_of_ne_nil hne
    omega
  · intro hsources
    -- a source with a problem makes it the only one
    by_cases hnone : ∀ d ∈ s.dataRules, g.sourceProblems s d = []
    · rw [hproblems, List.flatMap_eq_nil_iff.2 hnone]
      exact Nat.zero_le 1
    · push Not at hnone
      obtain ⟨d, hd, hsome⟩ := hnone
      exact Nat.le_of_eq (hsources d hd hsome)

/-- All problems are reported if and only if they are apart. -/
theorem reports_eq_problems_iff : g.reports s = g.problems s ↔ g.Apart s := by
  rw [apart_iff]
  by_cases h : s.rules.flatMap (g.ruleReports s) = []
  · -- the problems are sources, and the first of them is reported
    rw [reports_eq_take h, take_one_eq_iff, h, flatMap_ruleProblems_eq_nil h,
      length_problems_le_one_iff h]
    simp only [true_and]
  · -- a source is one problem too many
    have hsublist : (s.rules.flatMap (g.ruleReports s)).Sublist
        (s.rules.flatMap (g.ruleProblems s)) :=
      .flatMap_right s.rules fun r _ => ruleReports_sublist r
    have hsplit := append_eq_append_iff_of_sublist hsublist
      (List.nil_sublist (s.dataRules.flatMap (g.sourceProblems s)))
    rw [List.append_nil, ← problems] at hsplit
    rw [reports_eq_flatMap h, hsplit, eq_comm (a := []), List.flatMap_eq_nil_iff]
    refine and_congr_right fun heq => forall₂_congr fun d hd => ?_
    constructor
    · intro hnone hsome
      exact absurd hnone hsome
    · intro hsources
      by_contra hsome
      have hlength : (s.rules.flatMap (g.ruleReports s)).length +
          (s.dataRules.flatMap (g.sourceProblems s)).length = 1 := by
        rw [heq, ← List.length_append]
        exact hsources hsome
      have hrules : 0 < (s.rules.flatMap (g.ruleReports s)).length :=
        List.length_pos_of_ne_nil h
      have hsource : 0 < (s.dataRules.flatMap (g.sourceProblems s)).length := by
        refine List.length_pos_of_ne_nil fun hnone => ?_
        exact hsome (List.flatMap_eq_nil_iff.1 hnone d hd)
      omega

/-- What all data rules would have alone is wrong with a script. -/
theorem flatMap_alone_subperm :
    (s.dataRules.flatMap fun d => g.reports (s.alone d)).Subperm (g.problems s) := by
  simp only [reports_alone]
  -- the sources of all rules come behind what else is wrong with them
  have hperm := List.flatMap_append_perm s.dataRules (g.dataReports s) (g.sourceProblems s)
  refine hperm.symm.subperm.trans ?_
  have hreports : (s.dataRules.flatMap (g.dataReports s)).Sublist
      (s.dataRules.flatMap (g.dataProblems s)) :=
    .flatMap_right _ fun d _ => dataReports_sublist d
  exact ((hreports.trans flatMap_dataProblems_sublist).append_right _).subperm

/-- References to unknown variables are wrong with a data rule. -/
theorem dataReferences_sublist (d : Script.DataRule) :
    (dataReferences s d).Sublist (g.dataProblems s d) := by
  have hcalls : (dataReferences s d).Sublist
      (d.functions.flatMap (g.callProblems s (Morph.outputName d))) :=
    .flatMap_right _ fun _ _ => List.sublist_append_left _ _
  exact hcalls.trans (List.sublist_append_right _ _)

/-- References to unknown variables are wrong with a rule. -/
theorem ruleReferences_sublist (r : Script.Rule) :
    (ruleReferences s r).Sublist (g.ruleProblems s r) := by
  cases r with
  | data d => exact dataReferences_sublist d
  | collect r =>
      have hinputs : (r.inputs.flatMap (dataReferences s)).Sublist
          (r.inputs.flatMap (g.dataProblems s)) :=
        .flatMap_right _ fun d _ => dataReferences_sublist d
      exact (List.sublist_append_left _ _).append hinputs

end Sublists

/-- The problems of a script are reported together.  All that a data rule or an input of a collector
would have alone is wrong with the script, and every reference to an unknown variable is; nothing
but what is wrong is reported, and if anything is wrong, something is.  All of it is reported if and
only if the problems are apart from each other.  This is so for any functions and collectors; with
the standard ones, reports are the reasons why a script cannot be run. -/
theorem reports_together :
    (s.dataRules.flatMap fun d => g.reports (s.alone d)).Subperm (g.problems s) ∧
    (s.rules.flatMap (ruleReferences s)).Subperm (g.problems s) ∧
    (g.reports s).Subperm (g.problems s) ∧
    (g.reports s = [] ↔ g.problems s = []) ∧
    ((g.problems s).Subperm (g.reports s) ↔ g.Apart s) ∧
    ∀ e, Morph.ofScript s = .error e ↔
      standard.reports s ≠ [] ∧ e.issues = (standard.reports s).map Problem.issue := by
  have hrules : (s.rules.flatMap (ruleReferences s)).Sublist (s.rules.flatMap (g.ruleProblems s)) :=
    .flatMap_right _ fun r _ => ruleReferences_sublist r
  have hreferences : (s.rules.flatMap (ruleReferences s)).Sublist (g.problems s) :=
    hrules.trans (List.sublist_append_left _ _)
  have hreports : (g.reports s).Sublist (g.problems s) := reports_sublist
  -- a part of a list in which all of it is found is the whole of it
  have hall : (g.problems s).Subperm (g.reports s) ↔ g.reports s = g.problems s := by
    constructor
    · intro hsubperm
      exact hreports.eq_of_length_le hsubperm.length_le
    · intro heq
      rw [heq]
  rw [reports_eq_problems_iff] at hall
  exact ⟨flatMap_alone_subperm, hreferences.subperm, hreports.subperm, reports_eq_nil_iff, hall,
    fun e => ofScript_eq_error_iff⟩

/-- An unknown filter, function and variable, and a case that is neither of the two. -/
example : standard.reports ⟨"four", .empty,
    [.data ⟨"a", some "x", some "missing", [⟨"frobnicate", .empty⟩]⟩,
      .data ⟨"b", some "y", none, [⟨"case", .ofList [("to", "$[nope]")]⟩]⟩], .empty, .empty⟩ =
    [.unknownFilter "x" "missing", .unknownFunction "x" "frobnicate",
      .unknownVariable "y" "to" "nope", .refused "y" "case" (.invalidCase "")] := by
  decide +kernel

/-- A script with an attribute that refers to two unknown variables. -/
def twoUnknown : Script where
  name := "twice"
  vars := .empty
  rules := [.data ⟨"a", some "x", none, [⟨"compose", .ofList [("prefix", "$[p]$[q]")]⟩]⟩]
  maps := .empty
  filters := .empty

/-- Of two references in one attribute, only the last is reported. -/
theorem reports_one_of_two : ∃ e, Morph.ofScript twoUnknown = .error e ∧
    e.issues = [.script (.rule "x" "prefix" (.unknownVariable "q"))] ∧
    (twoUnknown.rules.flatMap (ruleReferences twoUnknown)).map Problem.issue =
      [.script (.rule "x" "prefix" (.unknownVariable "p")),
        .script (.rule "x" "prefix" (.unknownVariable "q"))] ∧
    ¬ (twoUnknown.rules.flatMap (ruleReferences twoUnknown)).map Problem.issue ⊆ e.issues := by
  have hreports : standard.reports twoUnknown = [.unknownVariable "x" "prefix" "q"] := by
    decide +kernel
  have hreferences : (twoUnknown.rules.flatMap (ruleReferences twoUnknown)).map Problem.issue =
      [.script (.rule "x" "prefix" (.unknownVariable "p")),
        .script (.rule "x" "prefix" (.unknownVariable "q"))] := by decide +kernel
  refine ⟨⟨_⟩, ofScript_eq_error_iff.2 ⟨by simp [hreports], rfl⟩, by rw [hreports]; rfl,
    hreferences, ?_⟩
  rw [hreferences, hreports]
  decide

end Morph.Registry
end Recast
