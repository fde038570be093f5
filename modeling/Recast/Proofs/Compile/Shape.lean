import Mathlib.Data.List.Nodup
import Recast.Proofs.Compile.Draft

/-!
# Shape — the rules of a compiled script

The data rules of a compiled script are those of the targets, in their order.  Its collect rules are
those of the collectors that a target reads through any number of components, each once and before
everything that reads it.

* `Draft.foldlM_addTarget` — what adding targets one after the other leads to;
* `Job.Shape` — the shape of the rules, through a list of the components they belong to;
* `Job.compile_shape` — every compiled script has it.
-/

namespace Recast

/-! ## Targets -/

namespace Draft

variable {j : Job} {ps seen : List Component} {d d' : Draft}

/-- A target that has been added reads its first input, under its own path. -/
theorem addTarget_ok {components : List Component} {t : Component}
    (h : addTarget components d t = .ok d') :
    ∃ input rest x, t.inputs = input :: rest ∧ ruleFrom components.reverse input d = .ok x ∧
      d' = { x.2 with rules := x.2.rules ++ [.data { x.1 with name := some t.path }] } := by
  unfold addTarget at h
  cases hinputs : t.inputs with
  | nil =>
      rw [hinputs] at h
      cases h
  | cons input rest =>
      rw [hinputs] at h
      obtain ⟨x, hx, hd⟩ := bind_eq_ok.1 h
      exact ⟨input, rest, x, rfl, hx, (Except.ok.inj hd).symm⟩

/-- A target adds the rules of collectors that it reads, and then its own. -/
theorem Holds.addTarget (hj : j.Accepted) (hd : Holds j ps seen d) {t : Component}
    (ht : t ∈ j.targets) (h : addTarget j.components d t = .ok d') :
    ∃ new more, Holds j (ps ++ new ++ [t]) (seen ++ more) d' ∧
      ∀ c ∈ new, c.kind = .collector ∧ j.ReadsThrough t c := by
  obtain ⟨hmem, hkind⟩ : t ∈ j.components ∧ t.kind = .target := by
    simpa [Job.targets, Job.ofKind] using ht
  obtain ⟨input, rest, x, hinputs, hx, rfl⟩ := addTarget_ok h
  -- a target reads one input only, and this is looked up among all components
  have hlength := hj.target_inputs t hmem hkind
  obtain rfl : rest = [] := by simpa [hinputs] using hlength
  have hfollows : Follows j j.components.reverse := by
    refine follows hj ?_ ?_
    · intro c hc
      exact Job.component?_of_mem hj.nodup_ids (List.mem_reverse.1 hc)
    · rw [List.map_reverse]
      exact List.nodup_reverse.2 hj.nodup_ids
  obtain ⟨new, more, hnew⟩ := hfollows hd hx
  obtain ⟨start, through, hchain, hreading⟩ := hnew.reading
  refine ⟨new, more, ?_, ?_⟩
  · have hrule : j.RuleOf t (.data { x.1 with name := some t.path }) := by
      rw [hreading]
      exact .target hkind hinputs (.of hchain)
    refine hnew.holds.addRule hrule hmem ?_ (by simp [hkind]) x.2.collected (by simp [hkind])
    intro i hi
    obtain rfl : i = input := by simpa [hinputs] using hi
    exact hnew.begun
  -- the target reads its input, and through it whatever has been added
  · intro c hc
    obtain ⟨hckind, -, b, hb, hreads⟩ := hnew.added c hc
    have hfirst : j.Reads t b := ⟨input, by simp [hinputs], hb⟩
    exact ⟨hckind, Relation.TransGen.head' hfirst hreads⟩

/-- Adding targets: their rules in their order, and between them those of collectors they read. -/
theorem foldlM_addTarget (hj : j.Accepted) {ts : List Component} (hts : ts ⊆ j.targets)
    (hd : Holds j ps seen d) (h : ts.foldlM (addTarget j.components) d = .ok d') :
    ∃ new more, Holds j (ps ++ new) (seen ++ more) d' ∧
      (new.filter fun c => c.kind = .target) = ts ∧
      ∀ c ∈ collectorsIn new, ∃ t ∈ ts, j.ReadsThrough t c := by
  induction ts generalizing ps seen d with
  | nil =>
      obtain rfl := Except.ok.inj h
      exact ⟨[], [], by simpa using hd, rfl, by simp [collectorsIn]⟩
  | cons t rest ih =>
      rw [List.foldlM_cons] at h
      -- the first target adds its collectors and itself, the others go on from there
      obtain ⟨e, he, hrest⟩ := bind_eq_ok.1 h
      have ht : t ∈ j.targets := hts List.mem_cons_self
      have hkind : t.kind = .target := by simpa [Job.targets, Job.ofKind] using (List.mem_filter.1 ht).2
      obtain ⟨new, more, hholds, hadded⟩ := hd.addTarget hj ht he
      obtain ⟨new', more', hholds', htargets, hreads⟩ :=
        ih (fun c hc => hts (List.mem_cons_of_mem _ hc)) hholds hrest
      -- what is added on the way to a target are collectors
      have hnone : (new.filter fun c => c.kind = .target) = [] := by
        refine List.filter_eq_nil_iff.2 fun c hc => ?_
        simp [(hadded c hc).1]
      refine ⟨new ++ t :: new', more ++ more', by simpa using hholds', ?_, ?_⟩
      · calc (new ++ t :: new').filter (fun c => c.kind = .target)
            = (t :: new').filter fun c => c.kind = .target := by
              rw [List.filter_append, hnone, List.nil_append]
          _ = t :: rest := by rw [List.filter_cons_of_pos (by simp [hkind]), htargets]
      · intro c hc
        obtain ⟨hmem, hckind⟩ := mem_collectorsIn.1 hc
        rcases List.mem_append.1 hmem with hmem | hmem
        · exact ⟨t, List.mem_cons_self, (hadded c hmem).2⟩
        · rcases List.mem_cons.1 hmem with rfl | hmem
          · rw [hkind] at hckind
            cases hckind
          · obtain ⟨u, hu, hread⟩ := hreads c (mem_collectorsIn.2 ⟨hmem, hckind⟩)
            exact ⟨u, List.mem_cons_of_mem _ hu, hread⟩

end Draft

/-! ## What is read has begun -/

namespace Job

variable {j : Job} {ps seen : List Component} {d : Draft}

/-- The inputs of a component with a rule end chains whose components have been seen, and the
collectors these start at have a rule too. -/
theorem chain_of_read (hd : Draft.Holds j ps seen d) {c b : Component} (hc : c ∈ ps)
    (hread : j.Reads c b) :
    ∃ start through, j.Chain b.id start through ∧ (∀ f ∈ start :: through, f ∈ seen) ∧
      (start.kind = .collector → start ∈ ps) := by
  obtain ⟨input, hinput, hb⟩ := hread
  obtain ⟨before, after, heq⟩ := List.append_of_mem hc
  obtain ⟨r, -, hrule⟩ := exists_of_mem_left hd.rules hc
  -- whatever rule the component has, there is a chain for each of its inputs
  have hchain : ∃ start through, j.Chain input start through := by
    cases hrule with
    | target hkind hinputs rule =>
        obtain rfl : input = _ := by simpa [hinputs] using hinput
        cases rule with
        | of chain => exact ⟨_, _, chain⟩
    | collector hkind rules =>
        obtain ⟨r, -, rule⟩ := exists_of_mem_left rules hinput
        cases rule with
        | of chain => exact ⟨_, _, chain⟩
  obtain ⟨start, through, hchain⟩ := hchain
  obtain ⟨hseen, hstart⟩ := hd.begun before c after heq input hinput start through hchain
  rw [id_of_component? hb, heq]
  exact ⟨start, through, hchain, hseen, fun hk => List.mem_append_left _ (hstart hk)⟩

/-- What a component reads is found under its id. -/
theorem component?_of_reads {c b : Component} (h : j.Reads c b) : j.component? b.id = some b := by
  obtain ⟨input, -, hb⟩ := h
  rw [id_of_component? hb]
  exact hb

/-- Whatever is read through others by a component with a rule ends a chain of components that have
been seen, which starts at a source or at a collector with a rule. -/
theorem chain_of_readsThrough (hj : j.Accepted) (hd : Draft.Holds j ps seen d) {c e : Component}
    (hc : c ∈ ps) (hread : j.ReadsThrough c e) :
    j.component? e.id = some e ∧
      ∃ start through, j.Chain e.id start through ∧ (∀ f ∈ start :: through, f ∈ seen) ∧
        (start.kind = .collector → start ∈ ps) := by
  -- by induction on the path that is read: the chain of its last component starts at a source, at a
  -- collector with a rule, or passes through a function whose input the next step reads
  induction hread with
  | single hb => exact ⟨component?_of_reads hb, chain_of_read hd hc hb⟩
  | @tail b e _ hstep ih =>
      refine ⟨component?_of_reads hstep, ?_⟩
      obtain ⟨hb, start, through, hchain, hseen, hstart⟩ := ih
      cases hchain with
      | start hfound hkind =>
          obtain rfl := Option.some.inj (hb.symm.trans hfound)
          rcases hkind with hkind | hkind
          · -- a source reads nothing
            obtain ⟨input, hinput, -⟩ := hstep
            rw [hj.source_inputs b (mem_of_component? hb) hkind] at hinput
            cases hinput
          · exact chain_of_read hd (hstart hkind) hstep
      | through hfound hkind hinput rest =>
          obtain rfl := Option.some.inj (hb.symm.trans hfound)
          obtain ⟨input, hmem, he⟩ := hstep
          obtain rfl : input = _ := by simpa [hinput] using hmem
          rw [id_of_component? he]
          refine ⟨start, _, rest, fun f hf => hseen f ?_, hstart⟩
          rcases List.mem_cons.1 hf with rfl | hf
          · exact List.mem_cons_self
          · exact List.mem_cons_of_mem _ (List.mem_append_left _ hf)

/-- A collector that is read through others by a component with a rule has a rule. -/
theorem mem_of_readsThrough (hj : j.Accepted) (hd : Draft.Holds j ps seen d) {c e : Component}
    (hc : c ∈ ps) (hread : j.ReadsThrough c e) (hkind : e.kind = .collector) : e ∈ ps := by
  obtain ⟨hfound, start, through, hchain, -, hstart⟩ := chain_of_readsThrough hj hd hc hread
  obtain ⟨rfl, -⟩ := hchain.unique (.start hfound (.inr hkind))
  exact hstart hkind

/-- Whatever is read through others by a component with a rule has been seen. -/
theorem seen_of_readsThrough (hj : j.Accepted) (hd : Draft.Holds j ps seen d) {c e : Component}
    (hc : c ∈ ps) (hread : j.ReadsThrough c e) : e ∈ seen := by
  obtain ⟨hfound, start, through, hchain, hseen, -⟩ := chain_of_readsThrough hj hd hc hread
  cases hchain with
  | start hstart _ =>
      obtain rfl := Option.some.inj (hfound.symm.trans hstart)
      exact hseen _ List.mem_cons_self
  | through hf _ _ _ =>
      obtain rfl := Option.some.inj (hfound.symm.trans hf)
      exact hseen _ (by simp)

/-- In a sound wiring every function and every collector is read by a target, through others or not. -/
theorem exists_target_readsThrough (hj : j.WellFormed) {c : Component} (hc : c ∈ j.components)
    (hkind : c.kind = .function ∨ c.kind = .collector) :
    ∃ t ∈ j.targets, j.ReadsThrough t c := by
  -- by induction on the number of components that stand behind
  induction hn : j.components.length - (j.components.map Component.id).idxOf c.id
    using Nat.strongRecOn generalizing c with
  | ind n ih =>
      obtain ⟨output, houtput⟩ := List.exists_mem_of_ne_nil _ (hj.wired c hc hkind).2
      obtain ⟨d, hd, -, hinput⟩ := hj.answered c hc output houtput
      have hread : j.Reads d c := ⟨c.id, hinput, component?_of_mem hj.distinct hc⟩
      cases hdkind : d.kind with
      | source =>
          rw [hj.sources d hd hdkind] at hinput
          cases hinput
      | target => exact ⟨d, List.mem_filter.2 ⟨hd, by simpa using hdkind⟩, .single hread⟩
      | function | collector =>
          have hrank := rank_lt_of_reads hj hd hread
          have hmem : d.id ∈ j.components.map Component.id := List.mem_map_of_mem hd
          have hbound := List.idxOf_lt_length_of_mem hmem
          rw [List.length_map] at hbound
          obtain ⟨t, ht, hthrough⟩ := ih _ (by omega) hd (by simp [hdkind]) rfl
          exact ⟨t, ht, hthrough.tail hread⟩

/-! ## Compiled scripts -/

/-- The rules of a script are those of the components `ps`: the targets in their order, and the
collectors that targets read, each once and before the rules that read it. -/
structure Shape (j : Job) (ps : List Component) (rules : List Script.Rule) : Prop where
  rules : List.Forall₂ j.RuleOf ps rules
  targets : (ps.filter fun c => c.kind = .target) = j.targets
  collectors : ∀ c, c ∈ ps ∧ c.kind = .collector ↔
    c ∈ j.components ∧ c.kind = .collector ∧ ∃ t ∈ j.targets, j.ReadsThrough t c
  once : ((ps.filter fun c => c.kind = .collector).map Component.id).Nodup
  ordered : ∀ before c after, ps = before ++ c :: after → ∀ input ∈ c.inputs,
    ∀ start through, j.Chain input start through → start.kind = .collector → start ∈ before

/-- A job that compiles has no faults, a draft, and a program. -/
theorem compile_ok {s : Script} (h : j.compile = .ok s) :
    j.compileIssues = [] ∧ j.draft = .ok s ∧ ∃ m, Morph.ofScript s = .ok m := by
  unfold compile at h
  cases hissues : j.compileIssues with
  | cons issue rest =>
      rw [hissues] at h
      cases h
  | nil =>
      rw [hissues] at h
      obtain ⟨s', hs', hrest⟩ := bind_eq_ok.1 h
      obtain ⟨m, hm, hs⟩ := bind_eq_ok.1 hrest
      obtain rfl := Except.ok.inj hs
      exact ⟨rfl, mapError_eq_ok.1 hs', m, hm⟩

/-- The draft of a compiled script has been reached by adding the targets. -/
theorem draft_holds (hj : j.Accepted) {s : Script} (h : j.draft = .ok s) :
    ∃ ps seen d, Draft.Holds j ps seen d ∧ s = ⟨j.name, j.vars, d.rules, d.maps, d.filters⟩ ∧
      (ps.filter fun c => c.kind = .target) = j.targets ∧
      ∀ c ∈ Draft.collectorsIn ps, ∃ t ∈ j.targets, j.ReadsThrough t c := by
  obtain ⟨d, hd, hs⟩ := bind_eq_ok.1 h
  obtain ⟨ps, seen, hholds, htargets, hreads⟩ :=
    Draft.foldlM_addTarget hj (List.Subset.refl _) Draft.holds_empty hd
  exact ⟨ps, seen, d, by simpa using hholds, (Except.ok.inj hs).symm, htargets, hreads⟩

/-- A draft to which all targets have been added has the rules of a compiled script. -/
theorem shape_of_holds (hj : j.Accepted) (hd : Draft.Holds j ps seen d)
    (htargets : (ps.filter fun c => c.kind = .target) = j.targets)
    (hreads : ∀ c ∈ Draft.collectorsIn ps, ∃ t ∈ j.targets, j.ReadsThrough t c) :
    j.Shape ps d.rules := by
  refine ⟨hd.rules, htargets, ?_, hd.once, ?_⟩
  · -- the collectors with a rule are those that some target reads
    intro c
    constructor
    · rintro ⟨hmem, hkind⟩
      exact ⟨hd.known c (List.mem_append_left _ hmem), hkind,
        hreads c (Draft.mem_collectorsIn.2 ⟨hmem, hkind⟩)⟩
    · rintro ⟨-, hkind, t, ht, hread⟩
      have htps : t ∈ ps := by
        rw [← htargets] at ht
        exact (List.mem_filter.1 ht).1
      exact ⟨mem_of_readsThrough hj hd htps hread hkind, hkind⟩
  · intro before c after heq input hinput start through hchain
    exact (hd.begun before c after heq input hinput start through hchain).2

/-- A compiled script is what a draft holds to which all targets have been added. -/
theorem compile_holds {s : Script} (h : j.compile = .ok s) :
    ∃ ps seen d, Draft.Holds j ps seen d ∧ s = ⟨j.name, j.vars, d.rules, d.maps, d.filters⟩ ∧
      j.Shape ps s.rules := by
  obtain ⟨hissues, hdraft, -⟩ := compile_ok h
  have hj := accepted_of_compileIssues hissues
  obtain ⟨ps, seen, d, hholds, rfl, htargets, hreads⟩ := draft_holds hj hdraft
  exact ⟨ps, seen, d, hholds, rfl, shape_of_holds hj hholds htargets hreads⟩

/-- Every compiled script has the rules of its targets and of the collectors that these read. -/
theorem compile_shape {s : Script} (h : j.compile = .ok s) : ∃ ps, j.Shape ps s.rules := by
  obtain ⟨ps, -, -, -, -, hshape⟩ := compile_holds h
  exact ⟨ps, hshape⟩

/-- A job whose collector `C` feeds a function, another collector and, through it, two targets. -/
def shared : Job :=
  ⟨"j", "catalogue",
    [⟨"S", "title", .source, ⟨"title", .empty⟩, [], ["C"], none⟩,
     ⟨"C", "choose", .collector, ⟨"choose", .empty⟩, ["S"], ["F", "D"], none⟩,
     ⟨"F", "trim", .function, ⟨"trim", .empty⟩, ["C"], ["D", "U"], none⟩,
     ⟨"D", "concat", .collector, ⟨"concat", .empty⟩, ["F", "C"], ["T"], none⟩,
     ⟨"T", "all", .target, ⟨"all", .empty⟩, ["D"], [], none⟩,
     ⟨"U", "one", .target, ⟨"one", .empty⟩, ["F"], [], none⟩], .empty⟩

def sharedScript : Script :=
  ⟨"catalogue", .empty,
    [.collect ⟨"choose", "@C", .empty, [⟨"title", some "S", none, []⟩]⟩,
     .collect ⟨"concat", "@D", .empty,
       [⟨"@C", some "F", none, [⟨"trim", .empty⟩]⟩, ⟨"@C", some "C", none, []⟩]⟩,
     .data ⟨"@D", some "all", none, []⟩,
     .data ⟨"@C", some "one", none, [⟨"trim", .empty⟩]⟩], .empty, .empty⟩

/-- A collector that feeds several rules stands in the script once. -/
theorem compile_shape_shared : shared.compile = .ok sharedScript ∧
    ∃ ps, shared.Shape ps sharedScript.rules := by
  have h : shared.compile = .ok sharedScript := by decide +kernel
  exact ⟨h, compile_shape h⟩

end Job
end Recast
