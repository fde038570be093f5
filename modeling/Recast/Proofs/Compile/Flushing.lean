import Recast.Proofs.Compile.Shape
import Recast.Proofs.Morph.Layer
import Recast.Proofs.Morph.Reading

/-!
# Flushing — compiled collectors are flushed in time

The rule of a collector stands in front of all rules that read its variable, so the program of a
compiled script is layered, and its collectors are flushed before the ones that read them:
`Job.compile_timely`.  This takes variables that are kept apart (`Job.Apart`).  A star in the id of a
collector makes its variable a pattern, so rules that read it also take the values of other
collectors: `Job.compile_starred_late`.
-/

namespace Recast
namespace Job

variable {j : Job} {s : Script}

/-! ## Variables that are kept apart -/

/-- Rules that read the variable of a collector do not listen to the variable of another one. -/
def Isolated (j : Job) : Prop :=
  ∀ c ∈ j.ofKind .collector, ∀ d ∈ j.ofKind .collector,
    Source.accepts (Draft.variable_ c.id) (Draft.variable_ d.id) = true → c.id = d.id

instance (j : Job) : Decidable j.Isolated :=
  inferInstanceAs (Decidable (∀ c ∈ j.ofKind .collector, ∀ d ∈ j.ofKind .collector, _ → _))

/-- A source without stars accepts itself and nothing else. -/
theorem accepts_of_plain {source path : String} (h : '*' ∉ source.toList) :
    Source.accepts source path = true ↔ source = path := by
  simp [Source.accepts, h]

theorem toList_variable (id : String) : (Draft.variable_ id).toList = '@' :: id.toList := by
  simp [Draft.variable_]

theorem isVariable_variable (id : String) : Script.isVariable (Draft.variable_ id) = true := by
  simp [Script.isVariable, toList_variable]

/-- Ids without stars keep the variables of collectors apart. -/
theorem isolated_of_plain (h : ∀ c ∈ j.ofKind .collector, '*' ∉ c.id.toList) : j.Isolated := by
  intro c hc d _ haccepts
  have hplain : '*' ∉ (Draft.variable_ c.id).toList := by simp [toList_variable, h c hc]
  have heq := congrArg String.toList ((accepts_of_plain hplain).1 haccepts)
  rw [toList_variable, toList_variable] at heq
  exact String.toList_inj.1 (List.cons.inj heq).2

/-- The variables of collectors are kept apart from one another, from the paths of sources, and
targets emit under no name that a rule listens to. -/
structure Apart (j : Job) : Prop where
  isolated : j.Isolated
  sources : ∀ c ∈ j.sources, ∀ e ∈ j.ofKind .collector,
    Source.accepts c.path (Draft.variable_ e.id) = false
  targets : ∀ t ∈ j.targets, Script.isVariable t.path = true →
    (∀ c ∈ j.sources, Source.accepts c.path t.path = false) ∧
      ∀ e ∈ j.ofKind .collector, Source.accepts (Draft.variable_ e.id) t.path = false

/-- Plain paths that are no variables keep those of collectors apart. -/
theorem apart_of_plain
    (hsources : ∀ c ∈ j.sources, '*' ∉ c.path.toList ∧ Script.isVariable c.path = false)
    (htargets : ∀ c ∈ j.targets, Script.isVariable c.path = false) (hisolated : j.Isolated) :
    j.Apart where
  isolated := hisolated
  sources := by
    intro c hc e _
    obtain ⟨hplain, hvariable⟩ := hsources c hc
    refine Bool.eq_false_iff.2 fun haccepts => ?_
    rw [(accepts_of_plain hplain).1 haccepts, isVariable_variable] at hvariable
    cases hvariable
  targets := by
    intro t ht hvariable
    rw [htargets t ht] at hvariable
    cases hvariable

/-! ## Rules and where they lead -/

/-- A rule that reads an input emits under its name. -/
theorem InputRule.outputName {name input : String} {r : Script.DataRule}
    (h : j.InputRule name input r) : Morph.outputName r = name := by
  cases h with
  | of chain => rfl

/-- The collectors of a script emit under the variables of the components they belong to. -/
theorem collects_of_rules {ps : List Component} {rules : List Script.Rule}
    (h : List.Forall₂ j.RuleOf ps rules) :
    (Morph.collects rules).map Script.CollectRule.name =
      (Draft.collectorsIn ps).map fun c => Draft.variable_ c.id := by
  induction h with
  | nil => rfl
  | cons hrule _ ih =>
      cases hrule with
      | target hkind hinput rule => simpa [Draft.collectorsIn, Morph.collects, hkind] using ih
      | collector hkind rules => simpa [Draft.collectorsIn, Morph.collects, hkind] using ih

/-- A data rule belongs to a target, under whose path it emits, or to an input of a collector, whose
place is the number of collectors in front of it. -/
inductive Wired (j : Job) (ps : List Component) (place : Nat) :
    Script.DataRule × Pipe.Output → Prop
  | target {t : Component} {r : Script.DataRule} (ht : t ∈ ps) (hkind : t.kind = .target) :
      Wired j ps place (r, .emit t.path)
  | input {before after : List Component} {c : Component} {input : String} {r : Script.DataRule}
      (hps : ps = before ++ c :: after) (hkind : c.kind = .collector) (hinput : input ∈ c.inputs)
      (rule : j.InputRule input input r) :
      Wired j ps place (r, .gather (place + (Draft.collectorsIn before).length) input)

/-- Every wire of a script belongs to a target or to an input of a collector. -/
theorem wired_of_rules {ps : List Component} {rules : List Script.Rule}
    (h : List.Forall₂ j.RuleOf ps rules) (place : Nat) :
    ∀ w ∈ Morph.wires place rules, Wired j ps place w := by
  induction h generalizing place with
  | nil => simp [Morph.wires]
  | @cons c _ ps rules hrule _ ih =>
      -- a collector in front moves all places by one
      have hlater : ∀ {w}, Wired j ps (place + (Draft.collectorsIn [c]).length) w →
          Wired j (c :: ps) place w := by
        intro w hw
        cases hw with
        | target ht hkind => exact .target (List.mem_cons_of_mem _ ht) hkind
        | @input before after d input r hps hkind hinput rule =>
            have hcons : Draft.collectorsIn (c :: before) =
                Draft.collectorsIn [c] ++ Draft.collectorsIn before := by
              rw [← Draft.collectorsIn_append]
              rfl
            rw [Nat.add_assoc, ← List.length_append, ← hcons]
            exact .input (by rw [hps, List.cons_append]) hkind hinput rule
      intro w hw
      cases hrule with
      | target hkind hinput rule =>
          rcases List.mem_cons.1 hw with rfl | hw
          · rw [rule.outputName]
            exact .target List.mem_cons_self hkind
          · refine hlater ?_
            simpa [Draft.collectorsIn, hkind] using ih place w hw
      | collector hkind inputs =>
          rcases List.mem_append.1 hw with hw | hw
          · obtain ⟨r, hr, rfl⟩ := List.mem_map.1 hw
            obtain ⟨input, hinput, rule⟩ := exists_of_mem_right inputs hr
            rw [rule.outputName]
            have hfirst : c :: ps = [] ++ c :: ps := rfl
            exact .input hfirst hkind hinput rule
          · refine hlater ?_
            simpa [Draft.collectorsIn, hkind] using ih (place + 1) w hw

/-- Data rules read the inputs of the components they belong to, one after the other. -/
theorem inputs_of_rules {ps : List Component} {rules : List Script.Rule}
    (h : List.Forall₂ j.RuleOf ps rules) (place : Nat) :
    List.Forall₂ (fun input w => ∃ name, j.InputRule name input w.1) (ps.flatMap Component.inputs)
      (Morph.wires place rules) := by
  induction h generalizing place with
  | nil => exact .nil
  | @cons c _ ps rules hrule _ ih =>
      rw [List.flatMap_cons]
      cases hrule with
      | target hkind hinput rule =>
          rw [hinput]
          exact .cons ⟨_, rule⟩ (ih place)
      | collector hkind inputs =>
          refine List.rel_append (List.forall₂_map_right_iff.2 (inputs.imp ?_)) (ih (place + 1))
          exact fun input r rule => ⟨input, rule⟩

/-! ## Compiled programs are layered -/

/-- A pipe of the program of a script has become of the rule that reads an input. -/
def PipeOf (j : Job) (s : Script) (input : String) (p : Pipe) : Prop :=
  ∃ name r, j.InputRule name input r ∧ Morph.PipeRead s r p.output p

/-- The pipes of a program read the inputs of the components that have a rule, one after the other. -/
theorem pipes_of_program {ps : List Component} (hrules : List.Forall₂ j.RuleOf ps s.rules)
    {m : Morph} (hm : Morph.ofScript s = .ok m) :
    List.Forall₂ (j.PipeOf s) (ps.flatMap Component.inputs) m.pipes := by
  have hinputs := inputs_of_rules hrules 0
  have hpipes := (Morph.ofScript_read hm).1
  -- the wires of the script stand between the inputs and the pipes
  generalize Morph.wires 0 s.rules = ws, ps.flatMap Component.inputs = inputs, m.pipes = pipes
    at hinputs hpipes
  induction hinputs generalizing pipes with
  | nil =>
      cases hpipes
      exact .nil
  | cons hrule _ ih =>
      cases hpipes with
      | cons hread hrest =>
          obtain ⟨name, rule⟩ := hrule
          exact .cons ⟨name, _, rule, hread.output.symm ▸ hread⟩ (ih _ hrest)

/-- The collectors of a program emit under the variables of the components they belong to. -/
theorem names_of_program {ps : List Component} (hrules : List.Forall₂ j.RuleOf ps s.rules)
    {m : Morph} (hm : Morph.ofScript s = .ok m) :
    m.collectors.map NamedCollector.name =
      (Draft.collectorsIn ps).map fun c => Draft.variable_ c.id := by
  rw [← collects_of_rules hrules]
  have hcollectors := (Morph.ofScript_read hm).2
  generalize Morph.collects s.rules = rs, m.collectors = cs at hcollectors
  induction hcollectors with
  | nil => rfl
  | cons hread _ ih => rw [List.map_cons, List.map_cons, hread.name, ih]

/-- A rule that listens to the variable of a collector reads a chain that starts there. -/
theorem chain_of_accepts (hj : j.Accepted) (hapart : j.Apart) {name input : String}
    {r : Script.DataRule} (rule : j.InputRule name input r) {e : Component} (he : e ∈ j.components)
    (hkind : e.kind = .collector)
    (haccepts : Source.accepts r.source (Draft.variable_ e.id) = true) :
    ∃ through, j.Chain input e through := by
  have hcollector : e ∈ j.ofKind .collector := List.mem_filter.2 ⟨he, by simpa using hkind⟩
  cases rule with
  | @of start through chain =>
      rcases chain.start_kind with hstart | hstart
      · -- the path of a source does not listen to variables
        have hmem : start ∈ j.sources := List.mem_filter.2 ⟨chain.mem.1, by simpa using hstart⟩
        have hlistens : Source.accepts start.path (Draft.variable_ e.id) = true := by
          simpa [Component.ruleNamed, Component.reading, hstart] using haccepts
        rw [hapart.sources start hmem e hcollector] at hlistens
        cases hlistens
      · have hlistens : Source.accepts (Draft.variable_ start.id) (Draft.variable_ e.id) = true := by
          simpa [Component.ruleNamed, Component.reading, hstart] using haccepts
        have hmem : start ∈ j.ofKind .collector :=
          List.mem_filter.2 ⟨chain.mem.1, by simpa using hstart⟩
        have hid := hapart.isolated start hmem e hcollector hlistens
        have hfound := component?_of_mem hj.nodup_ids chain.mem.1
        rw [hid, component?_of_mem hj.nodup_ids he] at hfound
        obtain rfl := Option.some.inj hfound
        exact ⟨through, chain⟩

theorem lt_of_mem_left {α : Type u} {as bs : List α} {a : α} {i : Nat} (h : (as ++ bs).Nodup)
    (hi : (as ++ bs)[i]? = some a) (ha : a ∈ as) : i < as.length := by
  by_contra hle
  rw [List.getElem?_append_right (by omega)] at hi
  exact (List.nodup_append.1 h).2.2 a ha a (List.mem_of_getElem? hi) rfl

/-- A rule reads the path of a source or the variable of a collector. -/
theorem InputRule.source_cases {name input : String} {r : Script.DataRule}
    (h : j.InputRule name input r) :
    (∃ c ∈ j.sources, r.source = c.path) ∨
      ∃ e ∈ j.ofKind .collector, r.source = Draft.variable_ e.id := by
  cases h with
  | @of start through chain =>
      rcases chain.start_kind with hstart | hstart
      · refine .inl ⟨start, List.mem_filter.2 ⟨chain.mem.1, by simpa using hstart⟩, ?_⟩
        simp [Component.ruleNamed, Component.reading, hstart]
      · refine .inr ⟨start, List.mem_filter.2 ⟨chain.mem.1, by simpa using hstart⟩, ?_⟩
        simp [Component.ruleNamed, Component.reading, hstart]

/-- A pipe of the program of a script belongs to a target or to an input of a collector. -/
theorem wired_of_program {ps : List Component} (hrules : List.Forall₂ j.RuleOf ps s.rules)
    {m : Morph} (hm : Morph.ofScript s = .ok m) {p : Pipe} (hp : p ∈ m.pipes) :
    ∃ w, Wired j ps 0 w ∧ p.source = w.1.source ∧ p.output = w.2 := by
  obtain ⟨w, hw, hread⟩ := exists_of_mem_right (Morph.ofScript_read hm).1 hp
  exact ⟨w, wired_of_rules hrules 0 w hw, hread.source, hread.output⟩

/-- The program of a script whose variables are kept apart is layered. -/
theorem layered_of_apart (hj : j.Accepted) {ps : List Component} (hshape : j.Shape ps s.rules)
    (hapart : j.Apart) {m : Morph} (hm : Morph.ofScript s = .ok m) : m.Layered := by
  have hnames := names_of_program hshape.rules hm
  have hwired := fun p hp => wired_of_program hshape.rules hm (p := p) hp
  refine ⟨?_, ?_, ?_⟩
  · intro c hc
    have hname : c.name ∈ m.collectors.map NamedCollector.name := List.mem_map_of_mem hc
    rw [hnames] at hname
    obtain ⟨e, -, he⟩ := List.mem_map.1 hname
    exact he ▸ isVariable_variable e.id
  · intro p hp name hemit hvariable
    obtain ⟨w, hw, -, houtput⟩ := hwired p hp
    rw [houtput] at hemit
    cases hw with
    | @target t r ht hkind =>
        obtain rfl := Pipe.Output.emit.inj hemit
        have htarget : t ∈ j.targets :=
          hshape.targets ▸ List.mem_filter.2 ⟨ht, by simpa using hkind⟩
        obtain ⟨hsources, hcollectors⟩ := hapart.targets t htarget hvariable
        intro q hq
        obtain ⟨input, -, name, r, rule, hread⟩ :=
          exists_of_mem_right (pipes_of_program hshape.rules hm) hq
        rw [hread.source]
        rcases rule.source_cases with ⟨c, hc, hpath⟩ | ⟨e, he, hname⟩
        · exact hpath ▸ hsources c hc
        · exact hname ▸ hcollectors e he
    | input _ _ _ _ => cases hemit
  · intro i c hi p hp haccepts k input hgather
    obtain ⟨w, hw, hsource, houtput⟩ := hwired p hp
    rw [houtput] at hgather
    rw [hsource] at haccepts
    cases hw with
    | target ht hkind => cases hgather
    | @input before after d input r hps _ hinput rule =>
        obtain ⟨rfl, rfl⟩ := Pipe.Output.gather.inj hgather
        -- the component that emits stands at its place among the collectors with a rule
        obtain ⟨e, he, hname⟩ : ∃ e, (Draft.collectorsIn ps)[i]? = some e ∧
            Draft.variable_ e.id = c.name := by
          have hplace := congrArg (fun names => names[i]?) hnames
          simp only [List.getElem?_map, hi, Option.map_some] at hplace
          exact Option.map_eq_some_iff.1 hplace.symm
        have hrule := Draft.mem_collectorsIn.1 (List.mem_of_getElem? he)
        obtain ⟨through, chain⟩ := chain_of_accepts hj hapart rule
          ((hshape.collectors e).1 hrule).1 hrule.2 (hname ▸ haccepts)
        -- and it stands before the component that reads it
        have hbefore := hshape.ordered before d after hps input hinput e through chain hrule.2
        have honce : (Draft.collectorsIn ps).Nodup := List.Nodup.of_map _ hshape.once
        rw [hps, Draft.collectorsIn_append] at he honce
        rw [Nat.zero_add]
        exact lt_of_mem_left honce he (Draft.mem_collectorsIn.2 ⟨hbefore, hrule.2⟩)

/-- The program of a compiled script is layered. -/
theorem layered_of_shape (hj : j.Accepted) {ps : List Component} (hshape : j.Shape ps s.rules)
    (hsources : ∀ c ∈ j.sources, '*' ∉ c.path.toList ∧ Script.isVariable c.path = false)
    (htargets : ∀ c ∈ j.targets, Script.isVariable c.path = false) (hisolated : j.Isolated)
    {m : Morph} (hm : Morph.ofScript s = .ok m) : m.Layered :=
  layered_of_apart hj hshape (apart_of_plain hsources htargets hisolated) hm

/-- If the variables of its collectors are kept apart, the program of a compiled script flushes each
collector after all that is delivered to it in the record; and if the record is not refused, every
collector is flushed once, and all that it emits meets the rules that listen to it.  The record can
follow any others: `st` is whatever state these lead to. -/
theorem compile_timely (h : j.compile = .ok s)
    (hsources : ∀ c ∈ j.sources, '*' ∉ c.path.toList ∧ Script.isVariable c.path = false)
    (htargets : ∀ c ∈ j.targets, Script.isVariable c.path = false) (hisolated : j.Isolated) :
    ∃ m, Morph.ofScript s = .ok m ∧ ∀ (q : WholeRecord) (st : Morph.State),
      Morph.Timely m (m.log q.events st) ∧
        ((Outcome.each m.step q.events st).refusal = none →
          Morph.Complete m (m.log q.events st)) := by
  obtain ⟨hissues, -, m, hm⟩ := compile_ok h
  obtain ⟨ps, -, -, -, -, hshape⟩ := compile_holds h
  have hlayered := layered_of_shape (accepted_of_compileIssues hissues) hshape hsources htargets
    hisolated hm
  exact ⟨m, hm, fun q st => ⟨hlayered.timely_record q st, hlayered.complete_record⟩⟩

def titled : WholeRecord :=
  ⟨"r", .literal "title" " x" (.literal "title" "y" .done)⟩

/-- Collectors that feed each other are flushed in time. -/
theorem compile_timely_shared : shared.compile = .ok sharedScript ∧
    (∀ c ∈ shared.sources, '*' ∉ c.path.toList ∧ Script.isVariable c.path = false) ∧
    (∀ c ∈ shared.targets, Script.isVariable c.path = false) ∧ shared.Isolated ∧
    ∃ m, Morph.ofScript sharedScript = .ok m ∧
      (Outcome.each m.step titled.events m.initial).refusal = none ∧
      Morph.Timely m (m.log titled.events m.initial) ∧
      Morph.Complete m (m.log titled.events m.initial) := by
  have hcompile : shared.compile = .ok sharedScript := by decide +kernel
  have hsources : ∀ c ∈ shared.sources,
      '*' ∉ c.path.toList ∧ Script.isVariable c.path = false := by decide +kernel
  have htargets : ∀ c ∈ shared.targets, Script.isVariable c.path = false := by decide +kernel
  have hisolated : shared.Isolated := isolated_of_plain (by decide +kernel)
  obtain ⟨m, hm, hrecords⟩ := compile_timely hcompile hsources htargets hisolated
  have hrun : ((Morph.ofScript sharedScript).toOption.map fun m =>
      (Outcome.each m.step titled.events m.initial).refusal) = some none := by decide +kernel
  rw [hm] at hrun
  have hrefusal := Option.some.inj hrun
  obtain ⟨htimely, hcomplete⟩ := hrecords titled m.initial
  exact ⟨hcompile, hsources, htargets, hisolated, m, hm, hrefusal, htimely, hcomplete hrefusal⟩

/-! ## Variables that are taken for patterns -/

/-- A job whose collector `K` reads the collector `c*`, and not the collector `cx`. -/
def starred : Job :=
  ⟨"j", "late",
    [⟨"A", "a", .source, ⟨"a", .empty⟩, [], ["c*"], none⟩,
     ⟨"B", "b", .source, ⟨"b", .empty⟩, [], ["cx"], none⟩,
     ⟨"c*", "concat", .collector, ⟨"concat", .empty⟩, ["A"], ["K"], none⟩,
     ⟨"cx", "concat", .collector, ⟨"concat", .empty⟩, ["B"], ["U"], none⟩,
     ⟨"K", "combine", .collector, ⟨"combine", .ofList [("value", .ofData "value" "<${c*}>")]⟩,
        ["c*"], ["T"], none⟩,
     ⟨"T", "t", .target, ⟨"t", .empty⟩, ["K"], [], none⟩,
     ⟨"U", "u", .target, ⟨"u", .empty⟩, ["cx"], [], none⟩], .empty⟩

def starredScript : Script :=
  ⟨"late", .empty,
    [.collect ⟨"concat", "@c*", .empty, [⟨"a", some "A", none, []⟩]⟩,
     .collect ⟨"combine", "@K", .ofList [("value", "<${c*}>")], [⟨"@c*", some "c*", none, []⟩]⟩,
     .data ⟨"@K", some "t", none, []⟩,
     .collect ⟨"concat", "@cx", .empty, [⟨"b", some "B", none, []⟩]⟩,
     .data ⟨"@cx", some "u", none, []⟩], .empty, .empty⟩

def pair : WholeRecord :=
  ⟨"r", .literal "a" "x" (.literal "b" "y" .done)⟩

/-- What happens in the record until the collector `K` is flushed. -/
def starredBefore : List Morph.Happening :=
  [.met 0 "x" (some "x"), .met 3 "y" (some "y"), .flushed 0 [("A", "x")], .emitted 0 "x",
    .met 1 "x" (some "x"), .emitted 1 "<x>", .met 2 "<x>" (some "<x>")]

/-- What happens afterwards: the value of `cx` meets the pipe that listens to `@c*`. -/
def starredAfter : List Morph.Happening :=
  [.flushed 2 [("B", "y")], .emitted 2 "y", .met 1 "y" (some "y"), .emitted 1 "<y>",
    .met 2 "<y>" (some "<y>"), .met 4 "y" (some "y")]

/-- The collector `K` receives a value after it has been flushed. -/
theorem compile_starred_late : starred.compile = .ok starredScript ∧
    (∀ c ∈ starred.sources, '*' ∉ c.path.toList ∧ Script.isVariable c.path = false) ∧
    (∀ c ∈ starred.targets, Script.isVariable c.path = false) ∧
    ∃ m, Morph.ofScript starredScript = .ok m ∧
      m.log pair.events m.initial = starredBefore ++ .flushed 1 [("c*", "x")] :: starredAfter ∧
      m.deliveries 1 starredAfter = [("c*", "y")] := by
  -- the run is evaluated once, and the equations are read off it
  have hlog : ((Morph.ofScript starredScript).toOption.map fun m =>
      (m.log pair.events m.initial, m.deliveries 1 starredAfter)) =
        some (starredBefore ++ .flushed 1 [("c*", "x")] :: starredAfter, [("c*", "y")]) := by
    decide +kernel
  refine ⟨by decide +kernel, by decide +kernel, by decide +kernel, ?_⟩
  cases hm : Morph.ofScript starredScript with
  | error e =>
      rw [hm] at hlog
      cases hlog
  | ok m =>
      rw [hm] at hlog
      obtain ⟨hrun, hlate⟩ := Prod.mk.inj (Option.some.inj hlog)
      exact ⟨m, rfl, hrun, hlate⟩

end Job
end Recast
