import Recast.Proofs.Compile.Correct
import Recast.Proofs.Morph.Faults

/-!
# Remaining — what the checks of a job leave to its script

The checks of a job look at the parameters of its components, and the program of its script is built
from the attributes and tables that these have become.  What the checks have seen is there: functions
and collectors, the attributes that they require, their tables and filters.  So a script that cannot
be run has variables without values, texts that a function or collector cannot read, or a source
whose regular expression is too large: `Job.remaining_issues`.
-/

namespace Recast

/-- What checks of a job leave to its script: a variable without a value, a complaint about the text
of an attribute, or a source with stars whose regular expression is too large. -/
inductive CompileIssue.Remains : CompileIssue → Prop
  | variable (rule part name : String) :
      Remains (.script (.rule rule part (.unknownVariable name)))
  | argument (rule part : String) {e : ArgumentError} (h : e.AboutText) :
      Remains (.script (.rule rule part (.argument e)))
  | pattern {source : String} (hstar : '*' ∈ source.toList)
      (hsize : Pattern.maxWeight < source.toList.length + 2 * source.toList.count '*' + 2) :
      Remains (.script (.sourcePattern source))

namespace Component

variable {c : Component} {s : Signature}

/-! ## Attributes that have been checked -/

theorem required_ne_functionParameter (h : s ∈ Signature.functions ++ Signature.collectors) :
    ∀ k ∈ s.required, k ≠ functionParameter := by
  revert s
  decide

/-- A parameter that has been found under a name is an argument with this name, if the name is not
that of the one that selects the function. -/
theorem mem_arguments_of_get? (hkeyed : c.Keyed) {k : String} {p : Parameter}
    (hget : c.payload.parameters.get? k = some p) (hk : k ≠ functionParameter) :
    p ∈ c.arguments ∧ p.name = k := by
  have hmem := OrderedMap.mem_of_get? hget
  have hname : p.name = k := hkeyed (k, p) hmem
  refine ⟨List.mem_filter.2 ⟨List.mem_map.2 ⟨(k, p), hmem, rfl⟩, ?_⟩, hname⟩
  simpa [hname] using hk

/-- What a function or collector requires is an attribute of its call. -/
theorem isSome_call_of_required (hkeyed : c.Keyed)
    (hs : s ∈ Signature.functions ++ Signature.collectors)
    (hissues : c.signatureIssues (some s) = []) {k : String} (hk : k ∈ s.required) :
    (c.call.attributes.get? k).isSome = true := by
  have hprovides : c.provides k = true := by
    simp only [signatureIssues, List.append_eq_nil_iff, List.map_eq_nil_iff,
      List.filter_eq_nil_iff] at hissues
    simpa using hissues.1 k hk
  unfold provides at hprovides
  cases hget : c.payload.parameters.get? k with
  | none => simp [hget] at hprovides
  | some p =>
      rw [hget] at hprovides
      obtain ⟨hp, rfl⟩ := mem_arguments_of_get? hkeyed hget (required_ne_functionParameter hs k hk)
      rw [get?_call hkeyed, find?_argument hkeyed hp, Option.bind_some, Option.isSome_map]
      unfold attribute?
      cases hentries : c.entries? p with
      | some entries => rfl
      | none =>
          -- a block would be a table
          have hrepeats : p.repeats = false := by
            unfold entries? Draft.tableOf? at hentries
            split at hentries
            · cases hentries
            · by_contra h
              simp [h] at hentries
          simpa [hrepeats] using hprovides

end Component

namespace Morph

variable {s : Script}

/-! ## Faults that remain -/

/-- What is reported on references to variables is left to the script. -/
theorem remains_resolve {vars : OrderedMap String String} {rule : String}
    {attributes : OrderedMap String String} :
    ∀ issue ∈ (resolve vars rule attributes).2, issue.Remains := by
  intro issue hissue
  obtain ⟨a, -, ha⟩ := List.mem_filterMap.1 hissue
  obtain ⟨n, -, rfl⟩ := Option.map_eq_some_iff.1 ha
  exact .variable rule a.1 n

/-- A call of a known function that has its attributes, and the tables that they name. -/
theorem remains_functionOf {rule : String} {call : Script.Call} {sig : Signature}
    (hsig : Signature.function? call.name = some sig)
    (hrequired : ∀ k ∈ sig.required, (call.attributes.get? k).isSome = true)
    (htables : ∀ k ∈ sig.tables, ∀ name, (filled s.vars call.attributes).get? k = some name →
      (s.maps.get? name).isSome = true) :
    ∀ issue ∈ (functionOf s rule call).2, issue.Remains := by
  -- the attributes are there and name tables that exist, so only a text can be refused
  have honly : OnlyText (Function.ofCall s.maps ⟨call.name, filled s.vars call.attributes⟩) := by
    refine Function.onlyText_ofCall hsig (fun k hk => ?_) htables
    rw [get?_filled, Option.isSome_map]
    exact hrequired k hk
  have hknown : ¬ (Signature.function? call.name).isNone = true := by simp [hsig]
  unfold functionOf
  rw [if_neg hknown]
  simp only [resolve_fst]
  cases hcall : Function.ofCall s.maps ⟨call.name, filled s.vars call.attributes⟩ with
  | ok f => exact remains_resolve
  | error e =>
      intro issue hissue
      rcases List.mem_append.1 hissue with hissue | hissue
      · exact remains_resolve issue hissue
      · obtain rfl := List.mem_singleton.1 hissue
        exact .argument rule call.name (honly e hcall)

end Morph

namespace Job

variable {j : Job} {ps seen : List Component} {d : Draft} {s : Script}

/-- The call by which a source with an ordinal counts is there with its attribute. -/
theorem remains_counting {c : Component} : ∀ call ∈ c.counting, ∀ rule,
    ∀ issue ∈ (Morph.functionOf s rule call).2, issue.Remains := by
  intro call hcall rule
  unfold Component.counting at hcall
  cases hdata : c.payload.data? Component.ordinalParameter with
  | none => simp [hdata] at hcall
  | some n =>
      rw [hdata] at hcall
      obtain rfl := List.mem_singleton.1 hcall
      have hsig : Signature.function? "occurrence" = some ⟨"occurrence", ["only"], []⟩ := by decide
      refine Morph.remains_functionOf hsig ?_ (by simp)
      intro k hk
      obtain rfl := List.mem_singleton.1 hk
      rfl

section Draft

variable (hj : j.compileIssues = []) (hkeyed : ∀ c ∈ j.components, c.Keyed)
  (hplain : ∀ c ∈ j.components, Placeholder.Plain '[' c.id.toList)
  (hd : Draft.Holds j ps seen d)
include hj hkeyed hplain hd

/-- The call of a function of the job finds all that the checks have seen. -/
theorem remains_call (hmaps : s.maps = d.maps) {c : Component} (hc : c ∈ seen)
    (hkind : c.kind = .function) (rule : String) :
    ∀ issue ∈ (Morph.functionOf s rule c.call).2, issue.Remains := by
  have hmem := hd.known c (List.mem_append_right _ hc)
  have hissues := compileIssues_of_mem hj hmem
  obtain ⟨sig, hsig⟩ := Option.isSome_iff_exists.1
    ((accepted_of_compileIssues hj).known_function c hmem hkind)
  have hsignature : c.signatureIssues (some sig) = [] := by
    simp only [Component.compileIssues, hkind, hsig, List.append_eq_nil_iff] at hissues
    exact hissues.2
  have hfunction := Function.mem_functions hsig
  refine Morph.remains_functionOf hsig ?_ ?_
  · intro k hk
    exact Component.isSome_call_of_required (hkeyed c hmem)
      (List.mem_append_left _ hfunction.1) hsignature hk
  · -- the table is one of the component, and all tables of what has been seen are there
    intro k hk name hname
    have hattribute := Function.required_mem_attributeNames hfunction.1 k
      (List.mem_append_right _ hk)
    rw [Component.agree_ownAttributes (hkeyed c hmem) (hplain c hmem) k hattribute] at hname
    obtain ⟨t, ht, rfl⟩ := Component.table_of_attribute hissues hkind (hkeyed c hmem) hsig hk hname
    rw [hmaps, hd.maps]
    refine OrderedMap.isSome_get?_ofList ?_
    rw [List.map_map]
    exact List.mem_map.2 ⟨t, List.mem_flatMap.2 ⟨c, hc, ht⟩, rfl⟩

omit hkeyed hplain in
/-- The filter of a source is found, and the checks have read it. -/
theorem filterOf_source (hfilters : s.filters = d.filters) {c : Component} (hc : c ∈ seen)
    (hkind : c.kind = .source) (rule : String) :
    (Morph.filterOf s rule (c.filter.map fun _ => c.id)).2 = [] := by
  cases hf : c.filter with
  | none => rfl
  | some f =>
      have hissues := compileIssues_of_mem hj (hd.known c (List.mem_append_right _ hc))
      simp only [Component.compileIssues, hkind, List.append_eq_nil_iff] at hissues
      have hfilter := hissues.2
      unfold Component.filterIssues at hfilter
      rw [hf] at hfilter
      -- the filter of the source has been put under its id
      have hget : s.filters.get? c.id = some f :=
        hfilters ▸ hd.get?_filter (accepted_of_compileIssues hj) hc hkind hf
      simp only [Option.map_some, Morph.filterOf, hget]
      cases hread : ValueFilter.ofFilter f with
      | ok v => rfl
      | error reason => simp [hread] at hfilter

/-- The rule of an input finds the filter of its source, and all that its functions need. -/
theorem remains_inputRule (hmaps : s.maps = d.maps) (hfilters : s.filters = d.filters)
    {name input : String} (hbegun : j.Begun ps seen input) {r : Script.DataRule}
    (rule : j.InputRule name input r) : ∀ issue ∈ Morph.dataIssues s r, issue.Remains := by
  cases rule with
  | @of start through chain =>
      obtain ⟨hseen, -⟩ := hbegun start through chain
      -- what the functions on the way add remains by the lemma on calls
      have hthrough : ∀ f ∈ through, ∀ rule,
          ∀ issue ∈ (Morph.functionOf s rule f.call).2, issue.Remains := fun f hf rule =>
        remains_call hj hkeyed hplain hd hmaps (hseen f (List.mem_cons_of_mem _ hf))
          (chain.mem.2 f hf).2 rule
      intro issue hissue
      rcases chain.start_kind with hkind | hkind
      case inl =>
        -- the source has its filter and, where it counts, a function in front
        have hfilter := filterOf_source hj hd hfilters (hseen start List.mem_cons_self) hkind name
        simp only [Morph.dataIssues, Component.ruleNamed, Component.reading, hkind,
          Morph.outputName, Option.getD_some, hfilter, List.nil_append, List.flatMap_append,
          List.flatMap_map, List.mem_append, List.mem_flatMap] at hissue
        rcases hissue with ⟨call, hcall, hissue⟩ | ⟨f, hf, hissue⟩
        · exact remains_counting call hcall name issue hissue
        · exact hthrough f hf name issue hissue
      case inr =>
        simp only [Morph.dataIssues, Component.ruleNamed, Component.reading, hkind,
          Morph.outputName, Option.getD_some, Morph.filterOf, List.nil_append,
          List.flatMap_map, List.mem_flatMap] at hissue
        obtain ⟨f, hf, hissue⟩ := hissue
        exact hthrough f hf name issue hissue

/-- The rule of a collector finds all that its collector and its inputs need. -/
theorem remains_rule (hmaps : s.maps = d.maps) (hfilters : s.filters = d.filters) {c : Component}
    (hc : c ∈ ps) {r : Script.Rule} (rule : j.RuleOf c r) :
    ∀ issue ∈ Morph.ruleIssues s r, issue.Remains := by
  -- the rule is one of a component at some place, and its inputs have been read by then
  obtain ⟨before, after, heq⟩ := List.append_of_mem hc
  have hbegun : ∀ input ∈ c.inputs, j.Begun before seen input := hd.begun before c after heq
  cases rule with
  | target hkind hinput rule =>
      exact remains_inputRule hj hkeyed hplain hd hmaps hfilters
        ((hbegun _ (by simp [hinput])).mono (by simp [heq]) (List.Subset.refl _)) rule
  | @collector rs hkind rules =>
      have hmem := hd.known c (List.mem_append_left _ hc)
      have hissues := compileIssues_of_mem hj hmem
      obtain ⟨sig, hsig⟩ := Option.isSome_iff_exists.1
        ((accepted_of_compileIssues hj).known_collector c hmem hkind)
      simp only [Component.compileIssues, hkind, hsig] at hissues
      have hrequired : ∀ k ∈ sig.required,
          ((Morph.filled s.vars c.call.attributes).get? k).isSome = true := by
        -- a required attribute has passed the check of the component
        intro k hk
        rw [Morph.get?_filled, Option.isSome_map]
        exact Component.isSome_call_of_required (hkeyed c hmem)
          (List.mem_append_right _ (List.mem_of_find?_eq_some hsig)) hissues hk
      have honly := Collector.onlyText_ofKind hsig hrequired (rs.map Morph.outputName)
      have hinputs : ∀ issue ∈ rs.flatMap (Morph.dataIssues s), issue.Remains := by
        intro issue hissue
        obtain ⟨r, hr, hissue⟩ := List.mem_flatMap.1 hissue
        obtain ⟨input, hinput, rule⟩ := exists_of_mem_right rules hr
        exact remains_inputRule hj hkeyed hplain hd hmaps hfilters
          ((hbegun input hinput).mono (by simp [heq]) (List.Subset.refl _)) rule issue hissue
      intro issue hissue
      simp only [Morph.ruleIssues, Morph.resolve_fst] at hissue
      -- what the collector itself refuses is a text, everything else comes from the inputs
      cases hcollector : Collector.ofKind c.function (Morph.filled s.vars c.call.attributes)
          (rs.map Morph.outputName) with
      | error e =>
          rw [hcollector] at hissue
          rcases List.mem_append.1 hissue with hissue | hissue
          · exact Morph.remains_resolve issue hissue
          · obtain rfl := List.mem_singleton.1 hissue
            exact .argument _ _ (honly e hcollector)
      | ok k =>
          rw [hcollector] at hissue
          rcases List.mem_append.1 hissue with hissue | hissue
          · exact Morph.remains_resolve issue hissue
          · exact hinputs issue hissue

end Draft

/-- If the checks of a job find nothing and it has a script, its script can only fail to run for
reasons that the checks leave to it. -/
theorem remaining_issues (hj : j.compileIssues = []) (hkeyed : ∀ c ∈ j.components, c.Keyed)
    (hplain : ∀ c ∈ j.components, Placeholder.Plain '[' c.id.toList) (hs : j.draft = .ok s)
    {e : CompileError} (he : Morph.ofScript s = .error e) :
    ∀ issue ∈ e.issues, issue.Remains := by
  obtain ⟨ps, seen, d, hd, rfl, -, -⟩ := draft_holds (accepted_of_compileIssues hj) hs
  rcases Morph.ofScript_eq_error he with hissues | ⟨source, hissues, hstar, hsize⟩
  · intro issue hissue
    rw [hissues] at hissue
    obtain ⟨r, hr, hissue⟩ := List.mem_flatMap.1 hissue
    obtain ⟨c, hc, rule⟩ := exists_of_mem_right hd.rules hr
    exact remains_rule hj hkeyed hplain hd rfl rfl hc rule issue hissue
  · intro issue hissue
    rw [hissues] at hissue
    obtain rfl := List.mem_singleton.1 hissue
    exact .pattern hstar hsize

/-- A job with a pattern that cannot be read and a variable that has no value. -/
def careless : Job :=
  ⟨"j", "careless",
    [⟨"S", "title", .source, ⟨"title", .empty⟩, [], ["F"], none⟩,
     ⟨"F", "replace", .function,
       ⟨"replace", .ofList [("pattern", ⟨"pattern", none, some "(", false, []⟩),
         ("with", ⟨"with", none, some "$[gone]", false, []⟩)]⟩, ["S"], ["T"], none⟩,
     ⟨"T", "t", .target, ⟨"t", .empty⟩, ["F"], [], none⟩], .empty⟩

def carelessScript : Script :=
  ⟨"careless", .empty,
    [.data ⟨"title", some "t", none,
      [⟨"replace", .ofList [("pattern", "("), ("with", "$[gone]")]⟩]⟩], .empty, .empty⟩

/-- A pattern that cannot be read and a variable without a value are left to the script. -/
theorem remaining_issues_careless : careless.compileIssues = [] ∧
    (∀ c ∈ careless.components, c.Keyed) ∧
    (∀ c ∈ careless.components, Placeholder.Plain '[' c.id.toList) ∧
    careless.draft = .ok carelessScript ∧
    ∃ e, Morph.ofScript carelessScript = .error e ∧
      e.issues = [.script (.rule "t" "with" (.unknownVariable "gone")),
        .script (.rule "t" "replace" (.argument (.invalidPattern "replace")))] ∧
      ∀ issue ∈ e.issues, issue.Remains := by
  have hissues : careless.compileIssues = [] := by decide +kernel
  have hkeyed : ∀ c ∈ careless.components, c.Keyed := by decide +kernel
  have hplain : ∀ c ∈ careless.components, Placeholder.Plain '[' c.id.toList := by decide +kernel
  have hdraft : careless.draft = .ok carelessScript := by decide +kernel
  have hrun : (match Morph.ofScript carelessScript with
      | .ok _ => []
      | .error e => e.issues) = [.script (.rule "t" "with" (.unknownVariable "gone")),
        .script (.rule "t" "replace" (.argument (.invalidPattern "replace")))] := by
    decide +kernel
  refine ⟨hissues, hkeyed, hplain, hdraft, ?_⟩
  cases he : Morph.ofScript carelessScript with
  | ok m =>
      rw [he] at hrun
      cases hrun
  | error e =>
      rw [he] at hrun
      exact ⟨e, rfl, hrun, remaining_issues hissues hkeyed hplain hdraft he⟩

/-- A job that reads a path and hands on what it finds. -/
def reading (path : String) : Job :=
  ⟨"j", "wide",
    [⟨"S", path, .source, ⟨path, .empty⟩, [], ["T"], none⟩,
     ⟨"T", "t", .target, ⟨"t", .empty⟩, ["S"], [], none⟩], .empty⟩

def readingScript (path : String) : Script :=
  ⟨"wide", .empty, [.data ⟨path, some "t", none, []⟩], .empty, .empty⟩

/-- The checks of a job do not look at the size of a path, and the program of its script does. -/
theorem ofScript_reading {path : String} (hstar : '*' ∈ path.toList)
    (hsize : Pattern.maxWeight < path.toList.length + 2 * path.toList.count '*' + 2) :
    Morph.ofScript (readingScript path) = .error ⟨[.script (.sourcePattern path)]⟩ := by
  have hwide : Source.isReadable path = false := by
    rw [Bool.eq_false_iff, Ne, Source.isReadable_iff]
    exact fun h => Nat.not_lt.2 (h hstar) hsize
  simp [Morph.ofScript, readingScript, Morph.addRule, Morph.addPipes, Morph.pipeOf, Morph.filterOf,
    hwide]

/-- A path of many stars passes all checks, and is refused for its size when the script is built. -/
theorem reading_stars_refused :
    let path := String.ofList (List.replicate 60000 '*')
    (reading path).compileIssues = [] ∧ (∀ c ∈ (reading path).components, c.Keyed) ∧
      (∀ c ∈ (reading path).components, Placeholder.Plain '[' c.id.toList) ∧
      (reading path).draft = .ok (readingScript path) ∧
      Morph.ofScript (readingScript path) = .error ⟨[.script (.sourcePattern path)]⟩ := by
  intro path
  have hlist : path.toList = List.replicate 60000 '*' := String.toList_ofList
  refine ⟨rfl, ?_, ?_, rfl, ofScript_reading ?_ ?_⟩
  · simp [reading, Component.Keyed, OrderedMap.empty]
  · simp only [reading, List.forall_mem_cons, List.not_mem_nil, false_implies, implies_true]
    decide
  · rw [hlist]
    exact List.mem_replicate.2 ⟨by decide, rfl⟩
  · -- every star weighs three
    rw [hlist, List.length_replicate, List.count_replicate_self]
    decide

end Job
end Recast
