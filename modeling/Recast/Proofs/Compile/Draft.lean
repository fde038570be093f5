import Recast.Proofs.Compile.Chain
import Recast.Proofs.Result

/-!
# Draft — what a draft holds while targets are added

`Draft.Holds` is what is true of every draft on the way: its rules are those of some components of
the job, each collector among them once and after the collectors that its inputs start at, and its
tables and filters are those of the components seen.  `Draft.ruleFrom` keeps it, by induction on the
components that may be looked up; nested in it, an induction on the inputs of a collector.
-/

namespace Recast

/-! ## Calls -/

namespace Draft

/-- Handing parameters to a call adds their attributes and their tables. -/
theorem foldl_addArgument (c : Component) (ps : List Parameter) (as : OrderedMap String String)
    (d : Draft) :
    ps.foldl (addArgument c.signature? c.id) (as, d) =
      ((ps.filterMap c.attribute?).foldl (fun m a => m.put a.1 a.2) as,
        { d with maps := (ps.filterMap c.table?).foldl (fun m t => m.put t.name t) d.maps }) := by
  induction ps generalizing as d with
  | nil => rfl
  | cons p rest ih =>
      have hstep : addArgument c.signature? c.id (as, d) p =
          ((c.attribute? p).elim as fun a => as.put a.1 a.2,
            { d with maps := (c.table? p).elim d.maps fun t => d.maps.put t.name t }) := by
        unfold addArgument Component.attribute? Component.table? Component.entries?
        cases tableOf? (c.signature?.any fun s => s.isTable p.name) p with
        | some entries => rfl
        | none => cases p.data <;> rfl
      rw [List.foldl_cons, hstep, ih]
      cases ha : c.attribute? p <;> cases ht : c.table? p <;> simp [ha, ht]

/-- A call hands on the attributes of its component and stores its tables. -/
theorem callOf_eq (c : Component) (d : Draft) :
    callOf c d =
      (c.call, { d with
        maps := (c.arguments.filterMap c.table?).foldl (fun m t => m.put t.name t) d.maps }) := by
  have h := foldl_addArgument c c.arguments (.ofList []) d
  rw [OrderedMap.foldl_put_ofList, List.nil_append] at h
  change (Script.Call.mk c.function (c.arguments.foldl (addArgument c.signature? c.id)
    (.ofList [], d)).1, (c.arguments.foldl (addArgument c.signature? c.id) (.ofList [], d)).2) = _
  rw [h]
  rfl

end Draft

/-! ## What is true of a draft -/

/-- A chain has begun in a draft whose rules are those of `ps` and that has seen `seen`: all its
components have been seen, and a collector at its start has its rule. -/
def Job.Begun (j : Job) (ps seen : List Component) (input : String) : Prop :=
  ∀ start through, j.Chain input start through →
    (∀ f ∈ start :: through, f ∈ seen) ∧ (start.kind = .collector → start ∈ ps)

namespace Draft

def collectorsIn (ps : List Component) : List Component :=
  ps.filter fun c => c.kind = .collector

/-- A draft holds the rules of `ps` and what the components in `seen` leave in a script. -/
structure Holds (j : Job) (ps seen : List Component) (d : Draft) : Prop where
  rules : List.Forall₂ j.RuleOf ps d.rules
  maps : d.maps = .ofList ((seen.flatMap Component.tables).map fun t => (t.name, t))
  filters : d.filters = .ofList (seen.flatMap Component.namedFilters)
  collected : ∀ id, id ∈ d.collected ↔ ∃ c ∈ collectorsIn ps, c.id = id
  once : ((collectorsIn ps).map Component.id).Nodup
  known : ∀ c ∈ ps ++ seen, c ∈ j.components
  /-- Collectors stand before the rules that read them. -/
  begun : ∀ before c after, ps = before ++ c :: after → ∀ input ∈ c.inputs,
    j.Begun before seen input
  called : ∀ c ∈ collectorsIn ps, c ∈ seen

variable {j : Job} {ps seen : List Component} {d : Draft}

@[simp] theorem mem_collectorsIn {c : Component} :
    c ∈ collectorsIn ps ↔ c ∈ ps ∧ c.kind = .collector := by
  simp [collectorsIn]

@[simp] theorem collectorsIn_append (ps qs : List Component) :
    collectorsIn (ps ++ qs) = collectorsIn ps ++ collectorsIn qs := by
  simp [collectorsIn]

/-- The empty draft holds nothing. -/
theorem holds_empty : Holds j [] [] empty where
  rules := .nil
  maps := rfl
  filters := rfl
  collected := by simp [empty, collectorsIn]
  once := by simp [collectorsIn]
  known := by simp
  begun := by simp
  called := by simp [collectorsIn]

end Draft

theorem Job.Begun.mono {j : Job} {ps qs seen more : List Component} {input : String}
    (h : j.Begun ps seen input) (hps : ps ⊆ qs) (hseen : seen ⊆ more) : j.Begun qs more input := by
  intro start through chain
  obtain ⟨hall, hstart⟩ := h start through chain
  constructor
  · intro f hf
    exact hseen (hall f hf)
  · intro hkind
    exact hps (hstart hkind)

namespace Draft

variable {j : Job} {ps seen : List Component} {d : Draft}

/-- Another component has been seen, and what it leaves in a script is there. -/
theorem Holds.see (h : Holds j ps seen d) {c : Component} (hc : c ∈ j.components)
    {maps : OrderedMap String Script.Table} {filters : OrderedMap String Filter}
    (hmaps : maps = c.tables.foldl (fun m t => m.put t.name t) d.maps)
    (hfilters : filters = c.namedFilters.foldl (fun m f => m.put f.1 f.2) d.filters) :
    Holds j ps (seen ++ [c]) { d with maps := maps, filters := filters } where
  rules := h.rules
  maps := by
    -- the tables of the component are put after those that have been seen
    have hfold := OrderedMap.foldl_put_ofList ((seen.flatMap Component.tables).map fun t => (t.name, t))
      (c.tables.map fun t => (t.name, t))
    rw [List.foldl_map, ← h.maps] at hfold
    simp [hmaps, hfold]
  filters := by
    have hfold := OrderedMap.foldl_put_ofList (seen.flatMap Component.namedFilters) c.namedFilters
    rw [← h.filters] at hfold
    simp [hfilters, hfold]
  collected := h.collected
  once := h.once
  known := by
    intro e he
    rcases List.mem_append.1 he with he | he
    · exact h.known e (List.mem_append_left _ he)
    · rcases List.mem_append.1 he with he | he
      · exact h.known e (List.mem_append_right _ he)
      · exact List.mem_singleton.1 he ▸ hc
  begun := fun before e after heq input hinput =>
    (h.begun before e after heq input hinput).mono (List.Subset.refl _) (by simp)
  called := fun e he => List.mem_append_left _ (h.called e he)

/-- The rule of a component whose inputs have begun goes to the end. -/
theorem Holds.addRule (h : Holds j ps seen d) {c : Component} {r : Script.Rule}
    (rule : j.RuleOf c r) (hc : c ∈ j.components)
    (hbegun : ∀ input ∈ c.inputs, j.Begun ps seen input)
    (hcollector : c.kind = .collector → c.id ∉ d.collected ∧ c ∈ seen) (collected : List String)
    (hcollected : ∀ id, id ∈ collected ↔ id ∈ d.collected ∨ c.kind = .collector ∧ c.id = id) :
    Holds j (ps ++ [c]) seen { d with rules := d.rules ++ [r], collected := collected } where
  rules := List.rel_append h.rules (.cons rule .nil)
  maps := h.maps
  filters := h.filters
  collected := by
    intro id
    rw [hcollected, h.collected]
    simp only [mem_collectorsIn, List.mem_append, List.mem_singleton]
    constructor
    · rintro (⟨e, ⟨he, hkind⟩, hid⟩ | ⟨hkind, hid⟩)
      · exact ⟨e, ⟨.inl he, hkind⟩, hid⟩
      · exact ⟨c, ⟨.inr rfl, hkind⟩, hid⟩
    · rintro ⟨e, ⟨he | rfl, hkind⟩, hid⟩
      · exact .inl ⟨e, ⟨he, hkind⟩, hid⟩
      · exact .inr ⟨hkind, hid⟩
  once := by
    rw [collectorsIn_append, List.map_append, List.nodup_append]
    refine ⟨h.once, ?_, ?_⟩
    · cases hkind : decide (c.kind = .collector) <;> simp [collectorsIn, hkind]
    · intro a ha b hb hab
      obtain ⟨e, he, hea⟩ := List.mem_map.1 ha
      obtain ⟨f, hf, hfb⟩ := List.mem_map.1 hb
      obtain ⟨hfc, hkind⟩ := mem_collectorsIn.1 hf
      obtain rfl := List.mem_singleton.1 hfc
      exact (hcollector hkind).1 ((h.collected f.id).2 ⟨e, he, hea.trans (hab.trans hfb.symm)⟩)
  known := by
    intro e he
    simp only [List.mem_append, List.mem_singleton] at he
    rcases he with (he | rfl) | he
    · exact h.known e (List.mem_append_left _ he)
    · exact hc
    · exact h.known e (List.mem_append_right _ he)
  begun := by
    intro before e after heq input hinput
    -- a place in the longer list is that of the new rule or one in the old list
    rcases List.eq_nil_or_concat after with rfl | ⟨after, last, rfl⟩
    · -- the new rule itself
      obtain ⟨rfl, rfl⟩ : ps = before ∧ c = e := by simpa using List.append_inj' heq rfl
      exact hbegun input hinput
    · rw [List.concat_eq_append, ← List.cons_append, ← List.append_assoc] at heq
      obtain ⟨hfront, -⟩ := List.append_inj' heq rfl
      exact h.begun before e after hfront input hinput
  called := by
    intro e he
    obtain ⟨hmem, hkind⟩ := mem_collectorsIn.1 he
    rcases List.mem_append.1 hmem with hmem | hmem
    · exact h.called e (mem_collectorsIn.2 ⟨hmem, hkind⟩)
    · obtain rfl := List.mem_singleton.1 hmem
      exact (hcollector hkind).2

/-! ## Following inputs -/

/-- What following the input `id` among the components `cs` leads to: a draft with the rules of the
collectors in `new` added, and the reading of the chain that ends at `id`. -/
structure Followed (j : Job) (cs ps seen : List Component) (id : String)
    (x : Script.DataRule × Draft) (new more : List Component) : Prop where
  holds : Holds j (ps ++ new) (seen ++ more) x.2
  reading : ∃ start through, j.Chain id start through ∧ x.1 = start.reading through
  begun : j.Begun (ps ++ new) (seen ++ more) id
  added : ∀ c ∈ new, c.kind = .collector ∧ c ∈ cs ∧
    ∃ b, j.component? id = some b ∧ Relation.ReflTransGen j.Reads b c

/-- Inputs can be followed among some components. -/
def Follows (j : Job) (cs : List Component) : Prop :=
  ∀ ⦃ps seen : List Component⦄ ⦃id : String⦄ ⦃d : Draft⦄ ⦃x : Script.DataRule × Draft⦄,
    Holds j ps seen d → ruleFrom cs id d = .ok x → ∃ new more, Followed j cs ps seen id x new more

def readInput (cs : List Component) (x : List Script.DataRule × Draft) (input : String) :
    Except ScriptFault (List Script.DataRule × Draft) := do
  let (r, d) ← ruleFrom cs input x.2
  return (x.1 ++ [{ r with name := some input }], d)

/-- Reading one more input follows it and adds its rule. -/
theorem readInput_ok {cs : List Component} {x y : List Script.DataRule × Draft} {input : String}
    (h : readInput cs x input = .ok y) :
    ∃ r d, ruleFrom cs input x.2 = .ok (r, d) ∧ y = (x.1 ++ [{ r with name := some input }], d) := by
  obtain ⟨⟨r, d⟩, hr, hy⟩ := bind_eq_ok.1 h
  exact ⟨r, d, hr, (Except.ok.inj hy).symm⟩

/-- Reading the inputs of a collector adds a rule for each, and those of the collectors on the way.
-/
theorem foldlM_readInput {cs : List Component} (hfollows : Follows j cs) {inputs : List String}
    {x y : List Script.DataRule × Draft} (hd : Holds j ps seen x.2)
    (h : inputs.foldlM (readInput cs) x = .ok y) :
    ∃ new more rules, Holds j (ps ++ new) (seen ++ more) y.2 ∧ y.1 = x.1 ++ rules ∧
      List.Forall₂ (fun input r => j.InputRule input input r) inputs rules ∧
      (∀ input ∈ inputs, j.Begun (ps ++ new) (seen ++ more) input) ∧
      ∀ c ∈ new, c.kind = .collector ∧ c ∈ cs ∧
        ∃ input ∈ inputs, ∃ b, j.component? input = some b ∧ Relation.ReflTransGen j.Reads b c := by
  induction inputs generalizing ps seen x with
  | nil =>
      obtain rfl := Except.ok.inj h
      exact ⟨[], [], [], by simpa using hd, by simp, .nil, by simp, by simp⟩
  | cons input rest ih =>
      rw [List.foldlM_cons] at h
      -- the first input adds its collectors, the others go on from there
      obtain ⟨z, hz, hrest⟩ := bind_eq_ok.1 h
      obtain ⟨r, d, hr, rfl⟩ := readInput_ok hz
      obtain ⟨new, more, hfirst⟩ := hfollows hd hr
      obtain ⟨new', more', rules, hholds, hrules, hforall, hbegun, hadded⟩ :=
        ih hfirst.holds hrest
      obtain ⟨start, through, hchain, hreading⟩ := hfirst.reading
      refine ⟨new ++ new', more ++ more', { r with name := some input } :: rules, ?_, ?_, ?_, ?_,
        ?_⟩
      · simpa using hholds
      · simpa using hrules
      · refine .cons ?_ hforall
        have hr : r = start.reading through := hreading
        exact hr ▸ .of hchain
      · intro i hi
        rcases List.mem_cons.1 hi with rfl | hi
        · exact hfirst.begun.mono (by simp) (by simp)
        · simpa using hbegun i hi
      · intro c hc
        rcases List.mem_append.1 hc with hc | hc
        · obtain ⟨hkind, hmem, hreads⟩ := hfirst.added c hc
          exact ⟨hkind, hmem, input, List.mem_cons_self, hreads⟩
        · obtain ⟨hkind, hmem, i, hi, hreads⟩ := hadded c hc
          exact ⟨hkind, hmem, i, List.mem_cons_of_mem _ hi, hreads⟩

/-! ## The kinds of components -/

section Kinds

variable {c : Component} {earlier : List Component}

/-- A chain has begun if its components have been seen. -/
theorem Begun_of_chain {start : Component} {through : List Component} {id : String}
    (chain : j.Chain id start through) (hseen : ∀ f ∈ start :: through, f ∈ seen)
    (hps : start.kind = .collector → start ∈ ps) : j.Begun ps seen id := by
  intro start' through' chain'
  obtain ⟨rfl, rfl⟩ := chain.unique chain'
  exact ⟨hseen, hps⟩

/-- The rule of a source is the reading of a chain that ends there. -/
theorem sourceRule_eq (hkind : c.kind = .source) :
    sourceRule c d = (c.reading [], { d with
      filters := c.namedFilters.foldl (fun m f => m.put f.1 f.2) d.filters }) := by
  unfold sourceRule
  cases hfilter : c.filter with
  | none =>
      simp only [Component.reading_nil_source hkind, Component.namedFilters, hkind, hfilter]
      rfl
  | some f =>
      simp only [Component.reading_nil_source hkind, Component.namedFilters, hkind, hfilter]
      rfl

/-- Following an input to a source. -/
theorem followed_source (hc : j.component? c.id = some c) (hkind : c.kind = .source)
    (hd : Holds j ps seen d) :
    Followed j (c :: earlier) ps seen c.id (sourceRule c d) [] [c] where
  holds := by
    rw [sourceRule_eq hkind, List.append_nil]
    exact hd.see (Job.mem_of_component? hc) (by simp [Component.tables, hkind]) rfl
  reading := ⟨c, [], .start hc (.inl hkind), by rw [sourceRule_eq hkind]⟩
  begun := Begun_of_chain (.start hc (.inl hkind)) (by simp) (by simp [hkind])
  added := by simp

/-- Following an input to a function. -/
theorem followed_function (hc : j.component? c.id = some c) (hkind : c.kind = .function)
    {input : String} (hinput : c.inputs = [input]) {x : Script.DataRule × Draft}
    {new more : List Component} (h : Followed j earlier ps seen input x new more) :
    Followed j (c :: earlier) ps seen c.id
      ({ x.1 with functions := x.1.functions ++ [(callOf c x.2).1] }, (callOf c x.2).2)
      new (more ++ [c]) where
  holds := by
    rw [callOf_eq, ← List.append_assoc]
    exact h.holds.see (Job.mem_of_component? hc) (by simp [Component.tables, hkind])
      (by simp [Component.namedFilters, hkind])
  reading := by
    obtain ⟨start, through, hchain, hreading⟩ := h.reading
    refine ⟨start, through ++ [c], .through hc hkind hinput hchain, ?_⟩
    rw [Component.reading_concat, ← hreading, callOf_eq]
  begun := by
    obtain ⟨start, through, hchain, -⟩ := h.reading
    obtain ⟨hall, hstart⟩ := h.begun start through hchain
    -- the chain has grown by the function, which is seen last
    refine Begun_of_chain (.through hc hkind hinput hchain) ?_ hstart
    intro f hf
    rw [← List.cons_append, List.mem_append] at hf
    rcases hf with hf | hf
    · rw [← List.append_assoc]
      exact List.mem_append_left _ (hall f hf)
    · obtain rfl := List.mem_singleton.1 hf
      simp
  added := by
    intro e he
    obtain ⟨hekind, hmem, b, hb, hreads⟩ := h.added e he
    -- what the function reads is added before it
    have hfirst : j.Reads c b := ⟨input, by simp [hinput], hb⟩
    exact ⟨hekind, List.mem_cons_of_mem _ hmem, c, hc, hreads.head hfirst⟩

/-- A collector that has its rule is read by its variable. -/
theorem followed_collected (hids : (j.components.map Component.id).Nodup)
    (hc : j.component? c.id = some c) (hkind : c.kind = .collector)
    (hd : Holds j ps seen d) (hcollected : c.id ∈ d.collected) :
    Followed j (c :: earlier) ps seen c.id (⟨variable_ c.id, none, none, []⟩, d) [] [] where
  holds := by simpa using hd
  reading := ⟨c, [], .start hc (.inr hkind), by simp [hkind]⟩
  begun := by
    obtain ⟨e, he, hid⟩ := (hd.collected c.id).1 hcollected
    have hmem := mem_collectorsIn.1 he
    -- ids are distinct, so it is this very collector
    have hec : e = c := by
      have hfound := Job.component?_of_mem hids (hd.known e (List.mem_append_left _ hmem.1))
      rw [hid, hc] at hfound
      exact (Option.some.inj hfound).symm
    subst hec
    refine Begun_of_chain (.start hc (.inr hkind)) ?_ fun _ => ?_
    · simpa using hd.called e he
    · simpa using hmem.1
  added := by simp

/-- The rule of a collector goes to the end, after the rules that its inputs need. -/
theorem followed_collector (hc : j.component? c.id = some c) (hkind : c.kind = .collector)
    (hlater : c.id ∉ earlier.map Component.id) (hnew : c.id ∉ d.collected)
    {new more : List Component} {rules : List Script.DataRule} {d' : Draft}
    (hd : Holds j ps seen d) (hd' : Holds j (ps ++ new) (seen ++ more) d')
    (hrules : List.Forall₂ (fun input r => j.InputRule input input r) c.inputs rules)
    (hbegun : ∀ input ∈ c.inputs, j.Begun (ps ++ new) (seen ++ more) input)
    (hadded : ∀ e ∈ new, e.kind = .collector ∧ e ∈ earlier ∧
      ∃ input ∈ c.inputs, ∃ b, j.component? input = some b ∧ Relation.ReflTransGen j.Reads b e) :
    Followed j (c :: earlier) ps seen c.id
      (⟨variable_ c.id, none, none, []⟩, closeCollector c rules d') (new ++ [c]) (more ++ [c]) where
  holds := by
    have hmem := Job.mem_of_component? hc
    have hcalled : Holds j (ps ++ new) (seen ++ more ++ [c]) (callOf c d').2 := by
      rw [callOf_eq]
      exact hd'.see hmem (by simp [Component.tables, hkind])
        (by simp [Component.namedFilters, hkind])
    -- neither the draft before nor the inputs have given the collector a rule
    have hfresh : c.id ∉ (callOf c d').2.collected := by
      rw [hcalled.collected]
      rintro ⟨e, he, hid⟩
      rw [collectorsIn_append, List.mem_append] at he
      rcases he with he | he
      · exact hnew ((hd.collected c.id).2 ⟨e, he, hid⟩)
      · obtain ⟨-, he, -⟩ := hadded e (mem_collectorsIn.1 he).1
        exact hlater (hid ▸ List.mem_map_of_mem he)
    have hrule : j.RuleOf c (.collect ⟨(callOf c d').1.name, variable_ c.id,
        (callOf c d').1.attributes, rules⟩) := by
      rw [callOf_eq]
      exact .collector hkind hrules
    have h := hcalled.addRule hrule hmem
      (fun input hinput => (hbegun input hinput).mono (List.Subset.refl _) (by simp))
      (fun _ => ⟨hfresh, by simp⟩) (c.id :: (callOf c d').2.collected)
      (by simp [hkind, eq_comm, or_comm])
    simpa [closeCollector] using h
  reading := ⟨c, [], .start hc (.inr hkind), by simp [hkind]⟩
  begun := Begun_of_chain (.start hc (.inr hkind)) (by simp) (by simp)
  added := by
    intro e he
    rcases List.mem_append.1 he with he | he
    · obtain ⟨hekind, hmem, input, hinput, b, hb, hreads⟩ := hadded e he
      exact ⟨hekind, List.mem_cons_of_mem _ hmem, c, hc, hreads.head ⟨input, hinput, hb⟩⟩
    · obtain rfl := List.mem_singleton.1 he
      exact ⟨hkind, List.mem_cons_self, e, hc, .refl⟩

end Kinds

section Equations

variable {c : Component} {earlier : List Component}

theorem ruleFrom_other {id : String} (hid : c.id ≠ id) :
    ruleFrom (c :: earlier) id d = ruleFrom earlier id d := by
  rw [ruleFrom, if_pos hid]

theorem ruleFrom_source (hkind : c.kind = .source) :
    ruleFrom (c :: earlier) c.id d = .ok (sourceRule c d) := by
  simp [ruleFrom, hkind]

theorem ruleFrom_target (hkind : c.kind = .target) :
    ruleFrom (c :: earlier) c.id d = .error (.targetFeeds c.id) := by
  simp [ruleFrom, hkind]

theorem ruleFrom_unwired (hkind : c.kind = .function) (hinputs : c.inputs = []) :
    ruleFrom (c :: earlier) c.id d = .error (.noInput .function c.id) := by
  simp [ruleFrom, hkind, hinputs]

theorem ruleFrom_function (hkind : c.kind = .function) {input : String} {rest : List String}
    (hinputs : c.inputs = input :: rest) :
    ruleFrom (c :: earlier) c.id d = ruleFrom earlier input d >>= fun x =>
      .ok ({ x.1 with functions := x.1.functions ++ [(callOf c x.2).1] }, (callOf c x.2).2) := by
  simp [ruleFrom, hkind, hinputs]
  rfl

theorem ruleFrom_collected (hkind : c.kind = .collector) (hcollected : c.id ∈ d.collected) :
    ruleFrom (c :: earlier) c.id d = .ok (⟨variable_ c.id, none, none, []⟩, d) := by
  simp [ruleFrom, hkind, hcollected]

theorem ruleFrom_collector (hkind : c.kind = .collector) (hcollected : c.id ∉ d.collected) :
    ruleFrom (c :: earlier) c.id d = c.inputs.foldlM (readInput earlier) ([], d) >>= fun x =>
      .ok (⟨variable_ c.id, none, none, []⟩, closeCollector c x.1 x.2) := by
  simp [ruleFrom, hkind, hcollected]
  rfl

end Equations

/-- Inputs can be followed among components of distinct ids whose functions read one input. -/
theorem follows (hj : j.Accepted) {cs : List Component}
    (hfound : ∀ c ∈ cs, j.component? c.id = some c) (hids : (cs.map Component.id).Nodup) :
    Follows j cs := by
  induction cs with
  | nil =>
      intro ps seen id d x _ h
      cases h
  | cons c earlier ih =>
      rw [List.map_cons, List.nodup_cons] at hids
      have hearlier := ih (fun e he => hfound e (List.mem_cons_of_mem _ he)) hids.2
      have hc := hfound c List.mem_cons_self
      -- inputs are looked up among the components before the one that reads them, so the induction
      -- is on the components that are left
      intro ps seen id d x hd h
      by_cases hid : c.id = id
      case neg =>
        rw [ruleFrom_other hid] at h
        obtain ⟨new, more, hnew⟩ := hearlier hd h
        refine ⟨new, more, hnew.holds, hnew.reading, hnew.begun, ?_⟩
        intro e he
        obtain ⟨hkind, hmem, hreads⟩ := hnew.added e he
        exact ⟨hkind, List.mem_cons_of_mem _ hmem, hreads⟩
      case pos =>
        subst hid
        cases hkind : c.kind with
        | source =>
            rw [ruleFrom_source hkind] at h
            obtain rfl := Except.ok.inj h
            exact ⟨[], [c], followed_source hc hkind hd⟩
        | target =>
            rw [ruleFrom_target hkind] at h
            cases h
        | function =>
            have hlength := hj.function_inputs c (Job.mem_of_component? hc) hkind
            cases hinputs : c.inputs with
            | nil =>
                rw [ruleFrom_unwired hkind hinputs] at h
                cases h
            | cons input rest =>
                obtain rfl : rest = [] := by simpa [hinputs] using hlength
                rw [ruleFrom_function hkind hinputs] at h
                obtain ⟨y, hy, hx⟩ := bind_eq_ok.1 h
                obtain rfl := Except.ok.inj hx
                obtain ⟨new, more, hnew⟩ := hearlier hd hy
                exact ⟨new, more ++ [c], followed_function hc hkind hinputs hnew⟩
        | collector =>
            by_cases hcollected : c.id ∈ d.collected
            case pos =>
              rw [ruleFrom_collected hkind hcollected] at h
              obtain rfl := Except.ok.inj h
              exact ⟨[], [], followed_collected hj.nodup_ids hc hkind hd hcollected⟩
            case neg =>
              rw [ruleFrom_collector hkind hcollected] at h
              obtain ⟨y, hy, hx⟩ := bind_eq_ok.1 h
              obtain rfl := Except.ok.inj hx
              obtain ⟨new, more, rules, hd', hrules, hforall, hbegun, hadded⟩ :=
                foldlM_readInput hearlier hd hy
              rw [hrules, List.nil_append]
              exact ⟨new ++ [c], more ++ [c], followed_collector hc hkind hids.1 hcollected hd hd'
                hforall hbegun hadded⟩

end Draft
end Recast
