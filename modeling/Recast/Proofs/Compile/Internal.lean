import Recast.Proofs.Compile.Flushing
import Recast.Proofs.Morph.Intake

/-!
# Internal — variables that stay inside

The variable of a collector is the way on which its values come to the rules that read it, and only
these: `Job.compile_internal`.  But a variable is a name like any other, and nothing keeps a literal of
a record from having this name: `Job.compile_intruder`.  So it takes records without such literals,
and a job whose variables are kept apart from the paths of its sources.
-/

namespace Recast

namespace Source

theorem fits_self (source : List Char) : fits source source = true := by
  induction source with
  | nil => rfl
  | cons c rest ih =>
      by_cases hc : c = '*'
      · subst hc
        -- the star stands for the star, and the rest for itself
        have hrest : fitsSome (fits rest) rest = true := by
          cases rest with
          | nil => exact ih
          | cons d rest => simp only [fitsSome, ih, Bool.true_or]
        have hstar : ('*' != '\n') = true := by decide
        simp only [fits, fitsSome, hrest, hstar, Bool.and_self, Bool.or_true]
      · simp [fits, ih]

/-- A source accepts itself, stars and all. -/
theorem accepts_self (source : String) : accepts source source = true := by
  unfold accepts
  split
  · exact fits_self _
  · exact beq_self_eq_true source

end Source

namespace Job

variable {j : Job} {s : Script} {ps : List Component} {m : Morph}

/-- No literal of a record is taken for the value of a collector. -/
def Clear (j : Job) (q : WholeRecord) : Prop :=
  ∀ e ∈ j.ofKind .collector, ∀ l ∈ q.content.flat [],
    Source.accepts (Draft.variable_ e.id) l.1 = false

instance (j : Job) (q : WholeRecord) : Decidable (j.Clear q) :=
  inferInstanceAs (Decidable (∀ e ∈ j.ofKind .collector, ∀ l ∈ q.content.flat [], _ = false))

/-- What is due to a rule whose chain starts at a component: the values of the literals whose paths
the source accepts, or those that the collector emits. -/
def due (m : Morph) (q : WholeRecord) (log : List Morph.Happening) (start : Component) :
    List String :=
  match start.kind with
  | .source => Morph.acceptedValues start.path (q.content.flat [])
  | .collector | .function | .target => m.emittedUnder (· == Draft.variable_ start.id) log

/-! ## What rules listen to -/

/-- The variable of a collector tells which collector it is. -/
theorem variable_inj {id id' : String} (h : Draft.variable_ id = Draft.variable_ id') : id = id' := by
  have hlist := congrArg String.toList h
  rw [toList_variable, toList_variable] at hlist
  exact String.toList_inj.1 (List.cons.inj hlist).2

/-- A collector of a program emits under the variable of a collector of the job. -/
theorem exists_collector_of_mem (hshape : j.Shape ps s.rules) (hm : Morph.ofScript s = .ok m)
    {c : NamedCollector} (hc : c ∈ m.collectors) :
    ∃ e ∈ j.ofKind .collector, c.name = Draft.variable_ e.id := by
  have hname : c.name ∈ m.collectors.map NamedCollector.name := List.mem_map_of_mem hc
  rw [names_of_program hshape.rules hm] at hname
  obtain ⟨e, he, hsame⟩ := List.mem_map.1 hname
  have hknown := (hshape.collectors e).1 (Draft.mem_collectorsIn.1 he)
  exact ⟨e, List.mem_filter.2 ⟨hknown.1, by simpa using hknown.2.1⟩, hsame.symm⟩

/-- No two collectors of a program emit under the same name. -/
theorem nodup_names (hshape : j.Shape ps s.rules) (hm : Morph.ofScript s = .ok m) :
    (m.collectors.map NamedCollector.name).Nodup := by
  have hids : ((Draft.collectorsIn ps).map Component.id).Nodup := hshape.once
  rw [names_of_program hshape.rules hm]
  have hmap : (Draft.collectorsIn ps).map (fun c => Draft.variable_ c.id) =
      ((Draft.collectorsIn ps).map Component.id).map Draft.variable_ := by simp
  rw [hmap]
  exact List.Nodup.map (fun _ _ => variable_inj) hids

/-- The variable of a collector is the only name of a collector that it accepts as a source. -/
theorem accepts_name (hshape : j.Shape ps s.rules) (hapart : j.Apart)
    (hm : Morph.ofScript s = .ok m) {start : Component} (hstart : start ∈ j.ofKind .collector)
    {c : NamedCollector} (hc : c ∈ m.collectors) :
    Source.accepts (Draft.variable_ start.id) c.name = (c.name == Draft.variable_ start.id) := by
  obtain ⟨e, he, hname⟩ := exists_collector_of_mem hshape hm hc
  rw [hname, Bool.eq_iff_iff, beq_iff_eq]
  constructor
  · intro haccepts
    rw [hapart.isolated start hstart e he haccepts]
  · intro hsame
    rw [hsame]
    exact Source.accepts_self _

/-- A source accepts no name of a collector. -/
theorem accepts_name_source (hshape : j.Shape ps s.rules) (hapart : j.Apart)
    (hm : Morph.ofScript s = .ok m) {start : Component} (hstart : start ∈ j.sources)
    {c : NamedCollector} (hc : c ∈ m.collectors) : Source.accepts start.path c.name = false := by
  obtain ⟨e, he, hname⟩ := exists_collector_of_mem hshape hm hc
  rw [hname]
  exact hapart.sources start hstart e he

/-! ## What enters rules -/

section Rules

variable (hj : j.Accepted) (hshape : j.Shape ps s.rules) (hapart : j.Apart)
  (hm : Morph.ofScript s = .ok m) {start : Component} {p : Pipe} {place : Nat} (q : WholeRecord)
  (st : Morph.State)
include hj hshape hapart hm

/-- The values that enter a rule whose chain starts at a source are those of literals. -/
theorem asFar_source (hstart : start ∈ j.sources) (hp : m.pipes[place]? = some p)
    (hsource : p.source = start.path) :
    Morph.AsFar (Outcome.each m.step q.events st).refusal (Morph.metBy place (m.log q.events st))
      (Morph.acceptedValues start.path (q.content.flat [])) := by
  have hnone : ∀ c ∈ m.collectors, Source.accepts p.source c.name = false := by
    intro c hc
    rw [hsource]
    exact accepts_name_source hshape hapart hm hstart hc
  have hsole : m.Sole p.source := by
    intro i k c d hi _ haccepts _
    rw [hnone c (List.mem_of_getElem? hi)] at haccepts
    cases haccepts
  have hemitted := Morph.emittedUnder_eq_nil hnone (m.log q.events st)
  have hintake := (layered_of_apart hj hshape hapart hm).intake hp hsole q st (.inr hemitted)
  rwa [hemitted, List.append_nil, hsource] at hintake

/-- The values that enter a rule whose chain starts at a collector are those that it emits. -/
theorem asFar_collector (hstart : start ∈ j.ofKind .collector) (hp : m.pipes[place]? = some p)
    (hsource : p.source = Draft.variable_ start.id) (hclear : j.Clear q) :
    Morph.AsFar (Outcome.each m.step q.events st).refusal (Morph.metBy place (m.log q.events st))
      (m.emittedUnder (· == Draft.variable_ start.id) (m.log q.events st)) := by
  have hnames : ∀ c ∈ m.collectors,
      Source.accepts p.source c.name = (c.name == Draft.variable_ start.id) := by
    intro c hc
    rw [hsource]
    exact accepts_name hshape hapart hm hstart hc
  -- two collectors that the pipe hears have the same name, and names are distinct
  have hsole : m.Sole p.source := by
    intro i k c d hi hk haccepts haccepts'
    rw [hnames c (List.mem_of_getElem? hi)] at haccepts
    rw [hnames d (List.mem_of_getElem? hk)] at haccepts'
    have hlt : i < (m.collectors.map NamedCollector.name).length := by
      simpa using (List.getElem?_eq_some_iff.1 hi).1
    refine (List.getElem?_inj hlt (nodup_names hshape hm)).1 ?_
    simp [hi, hk, beq_iff_eq.1 haccepts, beq_iff_eq.1 haccepts']
  -- no literal of the record is taken for the variable
  have hvalues : Morph.acceptedValues p.source (q.content.flat []) = [] := by
    refine List.map_eq_nil_iff.2 (List.filter_eq_nil_iff.2 fun l hl => ?_)
    rw [hsource, hclear start hstart l hl]
    exact Bool.false_ne_true
  have hintake := (layered_of_apart hj hshape hapart hm).intake hp hsole q st (.inl hvalues)
  rwa [hvalues, List.nil_append,
    Morph.emittedUnder_congr (· == Draft.variable_ start.id) hnames] at hintake

end Rules

/-- If the variables of its collectors are kept apart, and no literal of a record is taken for one of
their values, the rules of a compiled script take in what is due to them: a rule whose chain starts
at a collector takes in the values that the collector emits, and one whose chain starts at a source
the values of the literals whose paths the source accepts.  If the record is refused, this holds as
far as it goes.  The record can follow any others: `st` is whatever state these lead to. -/
theorem compile_internal (h : j.compile = .ok s) (hapart : j.Apart) :
    ∃ ps m, j.Shape ps s.rules ∧ Morph.ofScript s = .ok m ∧
      List.Forall₂ (j.PipeOf s) (ps.flatMap Component.inputs) m.pipes ∧
      ∀ (q : WholeRecord) (st : Morph.State), j.Clear q →
        ∀ place input start through, (ps.flatMap Component.inputs)[place]? = some input →
          j.Chain input start through →
            Morph.AsFar (Outcome.each m.step q.events st).refusal
              (Morph.metBy place (m.log q.events st)) (due m q (m.log q.events st) start) := by
  obtain ⟨hissues, -, m, hm⟩ := compile_ok h
  obtain ⟨ps, -, -, -, -, hshape⟩ := compile_holds h
  have hj := accepted_of_compileIssues hissues
  have hpipes := pipes_of_program hshape.rules hm
  refine ⟨ps, m, hshape, hm, hpipes, ?_⟩
  intro q st hclear place input start through hinput chain
  obtain ⟨p, hp, name, r, rule, hread⟩ := exists_of_getElem? hpipes hinput
  -- the rule for the input is the one the chain gives
  obtain rfl : r = start.ruleNamed name through := by
    cases rule with
    | of chain' =>
        obtain ⟨rfl, rfl⟩ := chain.unique chain'
        rfl
  rcases chain.start_kind with hkind | hkind
  · -- a source hears what is put in, a collector what is emitted under its variable
    have hmem : start ∈ j.sources := List.mem_filter.2 ⟨chain.mem.1, by simpa using hkind⟩
    have hsource : p.source = start.path := by
      rw [hread.source]
      simp [Component.ruleNamed, Component.reading, hkind]
    simpa only [due, hkind] using asFar_source hj hshape hapart hm q st hmem hp hsource
  · have hmem : start ∈ j.ofKind .collector := List.mem_filter.2 ⟨chain.mem.1, by simpa using hkind⟩
    have hsource : p.source = Draft.variable_ start.id := by
      rw [hread.source]
      simp [Component.ruleNamed, Component.reading, hkind]
    simpa only [due, hkind] using asFar_collector hj hshape hapart hm q st hmem hp hsource hclear

/-- A job whose collector feeds several rules: each gets the values of that collector. -/
theorem compile_internal_shared : shared.compile = .ok sharedScript ∧ shared.Apart ∧
    shared.Clear titled ∧
    ∃ ps m, shared.Shape ps sharedScript.rules ∧ Morph.ofScript sharedScript = .ok m ∧
      (Outcome.each m.step titled.events m.initial).refusal = none ∧
      ∀ place input start through, (ps.flatMap Component.inputs)[place]? = some input →
        shared.Chain input start through →
          Morph.metBy place (m.log titled.events m.initial) =
            due m titled (m.log titled.events m.initial) start := by
  have hcompile : shared.compile = .ok sharedScript := by decide +kernel
  have hsources : ∀ c ∈ shared.sources,
      '*' ∉ c.path.toList ∧ Script.isVariable c.path = false := by decide +kernel
  have htargets : ∀ c ∈ shared.targets, Script.isVariable c.path = false := by decide +kernel
  have hapart := apart_of_plain hsources htargets (isolated_of_plain (by decide +kernel))
  have hclear : shared.Clear titled := by decide +kernel
  obtain ⟨ps, m, hshape, hm, -, hrules⟩ := compile_internal hcompile hapart
  have hrun : ((Morph.ofScript sharedScript).toOption.map fun m =>
      (Outcome.each m.step titled.events m.initial).refusal) = some none := by decide +kernel
  rw [hm] at hrun
  -- nothing is refused, so what each pipe meets is all of what is due
  have hrefusal := Option.some.inj hrun
  refine ⟨hcompile, hapart, hclear, ps, m, hshape, hm, hrefusal, ?_⟩
  intro place input start through hinput chain
  exact (hrules titled m.initial hclear place input start through hinput chain).whole hrefusal

/-! ## Literals that are taken for values of collectors -/

def joined : Component :=
  ⟨"C", "concat", .collector, ⟨"concat", .empty⟩, ["S"], ["T"], none⟩

/-- A job that joins the values of a source. -/
def joining : Job :=
  ⟨"j", "joining",
    [⟨"S", "a", .source, ⟨"a", .empty⟩, [], ["C"], none⟩, joined,
     ⟨"T", "t", .target, ⟨"t", .empty⟩, ["C"], [], none⟩], .empty⟩

def joiningScript : Script :=
  ⟨"joining", .empty,
    [.collect ⟨"concat", "@C", .empty, [⟨"a", some "S", none, []⟩]⟩,
     .data ⟨"@C", some "t", none, []⟩], .empty, .empty⟩

/-- A record with nothing for the source of `Job.joining`, and a literal named like the variable of
its collector. -/
def intruder : WholeRecord :=
  ⟨"r", .literal "@C" "x" .done⟩

/-- A literal of the record enters the rule that reads the collector, which emits nothing. -/
theorem compile_intruder : joining.compile = .ok joiningScript ∧ joining.Apart ∧
    joining.Chain "C" joined [] ∧
    ∃ m, Morph.ofScript joiningScript = .ok m ∧
      (m.pipes.map Pipe.source)[1]? = some (Draft.variable_ joined.id) ∧
      (Outcome.each m.step intruder.events m.initial).refusal = none ∧
      (Outcome.each m.step intruder.events m.initial).out =
        [.startRecord "r", .literal "t" "x", .endRecord] ∧
      Morph.metBy 1 (m.log intruder.events m.initial) = ["x"] ∧
      due m intruder (m.log intruder.events m.initial) joined = [] := by
  have hsources : ∀ c ∈ joining.sources,
      '*' ∉ c.path.toList ∧ Script.isVariable c.path = false := by decide +kernel
  have htargets : ∀ c ∈ joining.targets, Script.isVariable c.path = false := by decide +kernel
  have hapart := apart_of_plain hsources htargets (isolated_of_plain (by decide +kernel))
  -- the values are those of the run itself
  have hrun : ((Morph.ofScript joiningScript).toOption.map fun m =>
      ((m.pipes.map Pipe.source)[1]?, (Outcome.each m.step intruder.events m.initial).refusal,
        (Outcome.each m.step intruder.events m.initial).out,
        Morph.metBy 1 (m.log intruder.events m.initial),
        due m intruder (m.log intruder.events m.initial) joined)) =
      some (some "@C", none, [.startRecord "r", .literal "t" "x", .endRecord], ["x"], []) := by
    decide +kernel
  refine ⟨by decide +kernel, hapart, .start rfl (.inr rfl), ?_⟩
  cases hm : Morph.ofScript joiningScript with
  | error e =>
      rw [hm] at hrun
      cases hrun
  | ok m =>
      rw [hm] at hrun
      have hfacts := Option.some.inj hrun
      simp only [Prod.mk.injEq] at hfacts
      exact ⟨m, rfl, hfacts⟩

end Job
end Recast
