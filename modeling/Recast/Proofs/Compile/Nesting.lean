import Mathlib.Data.List.Chain
import Mathlib.Data.List.Perm.Subperm
import Recast.Proofs.Compile.Flushing
import Recast.Proofs.Morph.Depth

/-!
# Nesting — how deep the variables of compiled scripts nest

A collector emits under its variable, and collectors that read it emit further.  So a value comes
through as many variables as there are collectors on a chain of inputs, if the variables are kept
apart: `Job.shallow_variable`.  In a job whose chains pass through no more collectors than variables
may nest, no value is refused for it: `Job.nesting_limit`.  A star in the id of a collector makes its
variable a pattern, with which a collector can come to read itself: `Job.compile_looping_deep`.
-/

namespace Recast
namespace Job

variable {j : Job} {s : Script}

/-! ## Chains of inputs -/

/-- No chain of inputs passes through more than `n` collectors. -/
def NestsWithin (j : Job) (n : Nat) : Prop :=
  ∀ cs ⊆ j.components, List.IsChain j.Reads cs → (Draft.collectorsIn cs).length ≤ n

/-- A chain of inputs passes through no component twice. -/
theorem nodup_of_isChain (hj : j.WellFormed) {cs : List Component} (hcs : cs ⊆ j.components)
    (h : List.IsChain j.Reads cs) : cs.Nodup := by
  -- a component stands behind those it reads, so along a chain the places fall
  have hrank : List.IsChain (fun c d => (j.components.map Component.id).idxOf d.id <
      (j.components.map Component.id).idxOf c.id) cs := by
    induction cs with
    | nil => exact .nil
    | cons c cs ih =>
        cases cs with
        | nil => exact .singleton c
        | cons d cs =>
            obtain ⟨hread, hrest⟩ := List.isChain_cons_cons.1 h
            exact .cons_cons (rank_lt_of_reads hj (hcs List.mem_cons_self) hread)
              (ih (fun e he => hcs (List.mem_cons_of_mem _ he)) hrest)
  have hpairwise := List.isChain_iff_pairwise.1 hrank
  refine hpairwise.imp fun hlt heq => ?_
  subst heq
  exact Nat.lt_irrefl _ hlt

/-- No chain of inputs passes through more collectors than a job has. -/
theorem nestsWithin_collectors (hj : j.WellFormed) :
    j.NestsWithin (j.ofKind .collector).length := by
  intro cs hcs hchain
  have hnodup : (Draft.collectorsIn cs).Nodup := (nodup_of_isChain hj hcs hchain).filter _
  refine (List.subperm_of_subset hnodup fun c hc => ?_).length_le
  obtain ⟨hmem, hkind⟩ := Draft.mem_collectorsIn.1 hc
  exact List.mem_filter.2 ⟨hcs hmem, by simpa using hkind⟩

/-- From a component that reads it, a chain leads through its functions to its start. -/
theorem isChain_of_chain {id : String} {start : Component} {through : List Component}
    (h : j.Chain id start through) {reader : Component} (hreader : id ∈ reader.inputs) :
    List.IsChain j.Reads (reader :: (through.reverse ++ [start])) := by
  induction h generalizing reader with
  | start hc _ => exact .cons_cons ⟨_, hreader, hc⟩ (.singleton _)
  | @through id input f c fs hf _ hinput _ ih =>
      rw [List.reverse_append, List.reverse_singleton]
      exact .cons_cons ⟨_, hreader, hf⟩ (ih (by simp [hinput]))

/-! ## Shallow programs -/

section Program

variable {m : Morph} {ps : List Component}

/-- What a pipe lets out under a variable comes from a collector, one of whose inputs it reads. -/
theorem reader_of_letsOut (hshape : j.Shape ps s.rules) (hm : Morph.ofScript s = .ok m)
    (htargets : ∀ c ∈ j.targets, Script.isVariable c.path = false) {p : Pipe} (hp : p ∈ m.pipes)
    {name : String} (hname : m.LetsOut p name) (hvariable : Script.isVariable name = true) :
    ∃ d ∈ j.components, d.kind = .collector ∧ name = Draft.variable_ d.id ∧
      ∃ input ∈ d.inputs, ∃ r, j.InputRule input input r ∧ p.source = r.source := by
  obtain ⟨w, hw, hsource, houtput⟩ := wired_of_program hshape.rules hm hp
  cases hw with
  | @target t r ht hkind =>
      rcases hname with hemit | ⟨place, input, c, hgather, -, -⟩
      · rw [houtput] at hemit
        obtain rfl := Pipe.Output.emit.inj hemit
        have htarget : t ∈ j.targets :=
          hshape.targets ▸ List.mem_filter.2 ⟨ht, by simpa using hkind⟩
        rw [htargets t htarget] at hvariable
        cases hvariable
      · rw [houtput] at hgather
        cases hgather
  | @input before after d input r hps hkind hinput rule =>
      rcases hname with hemit | ⟨place, input', c, hgather, hc, rfl⟩
      · rw [houtput] at hemit
        cases hemit
      · rw [houtput] at hgather
        obtain ⟨rfl, rfl⟩ := Pipe.Output.gather.inj hgather
        have hd : d ∈ ps := by simp [hps]
        refine ⟨d, ((hshape.collectors d).1 ⟨hd, hkind⟩).1, hkind, ?_, input, hinput, r, rule,
          hsource⟩
        -- the collector at this place belongs to the component
        have hplace := congrArg (fun names => names[0 + (Draft.collectorsIn before).length]?)
          (names_of_program hshape.rules hm)
        have hcons : Draft.collectorsIn (d :: after) = d :: Draft.collectorsIn after := by
          simp [Draft.collectorsIn, hkind]
        rw [hps, Draft.collectorsIn_append, hcons, List.getElem?_map, hc] at hplace
        simpa using hplace

/-- If no chain of inputs that ends at a collector passes through more than `n` collectors, no value
that it emits comes through `n` variables. -/
theorem shallow_variable (hj : j.Accepted) (hshape : j.Shape ps s.rules) (hapart : j.Apart)
    (htargets : ∀ c ∈ j.targets, Script.isVariable c.path = false)
    (hm : Morph.ofScript s = .ok m) {n : Nat} {e : Component} (he : e ∈ j.components)
    (hkind : e.kind = .collector)
    (hchains : ∀ cs, cs ++ [e] ⊆ j.components → List.IsChain j.Reads (cs ++ [e]) →
      (Draft.collectorsIn (cs ++ [e])).length ≤ n) :
    m.Shallow n (Draft.variable_ e.id) := by
  have hone : Draft.collectorsIn [e] = [e] := by simp [Draft.collectorsIn, hkind]
  induction n generalizing e with
  | zero =>
      have hempty := hchains [] (by simpa using he) (.singleton e)
      simp [hone] at hempty
  | succ n ih =>
      intro p hp haccepts name hname hvariable
      obtain ⟨d, hd, hdkind, rfl, input, hinput, r, rule, hsource⟩ :=
        reader_of_letsOut hshape hm htargets hp hname hvariable
      obtain ⟨through, chain⟩ :=
        chain_of_accepts hj hapart rule he hkind (hsource ▸ haccepts)
      refine ih hd hdkind ?_ (by simp [Draft.collectorsIn, hdkind])
      -- a chain that ends at the reader goes on to the collector that it reads
      intro cs hcs hchain
      have hreads := isChain_of_chain chain hinput
      have hlonger : List.IsChain j.Reads ((cs ++ d :: through.reverse) ++ [e]) := by
        rw [List.append_assoc, List.cons_append]
        exact List.isChain_split.2 ⟨hchain, hreads⟩
      have hmem : (cs ++ d :: through.reverse) ++ [e] ⊆ j.components := by
        intro c hc
        simp only [List.mem_append, List.mem_cons, List.mem_reverse, List.not_mem_nil,
          or_false] at hc
        rcases hc with (hc | rfl | hc) | rfl
        · exact hcs (List.mem_append_left _ hc)
        · exact hd
        · exact (chain.mem.2 c hc).1
        · exact he
      have hle := hchains _ hmem hlonger
      have hsplit : cs ++ d :: through.reverse ++ [e] = (cs ++ [d]) ++ (through.reverse ++ [e]) := by
        simp
      rw [hsplit, Draft.collectorsIn_append, Draft.collectorsIn_append through.reverse, hone,
        List.length_append, List.length_append, List.length_singleton] at hle
      omega

/-- If no chain of inputs passes through more collectors than variables may nest, no event is refused
for values that come through too many variables. -/
theorem refusal_step_of_nestsWithin (hj : j.Accepted) (hshape : j.Shape ps s.rules)
    (hapart : j.Apart) (htargets : ∀ c ∈ j.targets, Script.isVariable c.path = false)
    (hm : Morph.ofScript s = .ok m) (hnests : j.NestsWithin Refusal.maxDepth) (e : Event)
    (st : Morph.State) (v : String) : (m.step e st).refusal ≠ some (.tooDeep v) := by
  have hcollector : ∀ d ∈ j.components, d.kind = .collector →
      m.Shallow Refusal.maxDepth (Draft.variable_ d.id) := fun d hd hkind =>
    shallow_variable hj hshape hapart htargets hm hd hkind fun cs hcs hchain => hnests _ hcs hchain
  refine Morph.refusal_step_of_shallow ?_ ?_ e st v
  · -- what is let out under the name of a variable is read by the collector of that name
    intro path p hp _ name hname hvariable
    obtain ⟨d, hd, hkind, rfl, -⟩ := reader_of_letsOut hshape hm htargets hp hname hvariable
    exact hcollector d hd hkind
  · -- what a collector answers goes out under its own name
    intro c hc
    have hname : c.name ∈ m.collectors.map NamedCollector.name := List.mem_map_of_mem hc
    rw [names_of_program hshape.rules hm] at hname
    obtain ⟨d, hd, hname⟩ := List.mem_map.1 hname
    have hrule := (hshape.collectors d).1 (Draft.mem_collectorsIn.1 hd)
    exact hname ▸ hcollector d hrule.1 hrule.2.1

end Program

/-! ## Compiled programs -/

/-- If a job compiles, the variables of its collectors are kept apart and no chain of inputs passes
through more collectors than variables may nest, its program refuses no event for values that come
through too many variables, whatever state it is in.  And whatever the rules of a script are, every
event comes to an end, with what the program answers. -/
theorem nesting_limit (j : Job) (s : Script) :
    (j.compile = .ok s → j.NestsWithin Refusal.maxDepth →
      (∀ c ∈ j.sources, '*' ∉ c.path.toList ∧ Script.isVariable c.path = false) →
      (∀ c ∈ j.targets, Script.isVariable c.path = false) → j.Isolated →
      ∃ m, Morph.ofScript s = .ok m ∧
        ∀ e st v, (m.step e st).refusal ≠ some (.tooDeep v)) ∧
    ∀ m, Morph.ofScript s = .ok m → ∀ e st o, m.Received e st o ↔ o = m.step e st := by
  constructor
  · intro h hnests hsources htargets hisolated
    obtain ⟨hissues, -, m, hm⟩ := compile_ok h
    obtain ⟨ps, -, -, -, -, hshape⟩ := compile_holds h
    have haccepted : j.Accepted := accepted_of_compileIssues hissues
    have hapart : j.Apart := apart_of_plain hsources htargets hisolated
    exact ⟨m, hm, refusal_step_of_nestsWithin haccepted hshape hapart htargets hm hnests⟩
  · intro m _
    exact Morph.received_iff

/-- Collectors that feed each other, well within the limit. -/
theorem nesting_limit_shared : shared.compile = .ok sharedScript ∧
    shared.NestsWithin Refusal.maxDepth ∧
    (∀ c ∈ shared.sources, '*' ∉ c.path.toList ∧ Script.isVariable c.path = false) ∧
    (∀ c ∈ shared.targets, Script.isVariable c.path = false) ∧ shared.Isolated ∧
    ∃ m, Morph.ofScript sharedScript = .ok m ∧
      ∀ e st v, (m.step e st).refusal ≠ some (.tooDeep v) := by
  have hcompile : shared.compile = .ok sharedScript := by decide +kernel
  have hwell := wellFormed_of_compileIssues (compile_ok hcompile).1
  have hnests : shared.NestsWithin Refusal.maxDepth := fun cs hcs hchain =>
    Nat.le_trans (nestsWithin_collectors hwell cs hcs hchain) (by decide)
  have hsources : ∀ c ∈ shared.sources,
      '*' ∉ c.path.toList ∧ Script.isVariable c.path = false := by decide +kernel
  have htargets : ∀ c ∈ shared.targets, Script.isVariable c.path = false := by decide +kernel
  have hisolated : shared.Isolated := by decide +kernel
  exact ⟨hcompile, hnests, hsources, htargets, hisolated,
    (nesting_limit shared sharedScript).1 hcompile hnests hsources htargets hisolated⟩

/-- A job with two collectors, of which the second reads the first.  The first one has a star in its
id, with which its variable takes in that of the second. -/
def looping : Job :=
  ⟨"j", "looping",
    [⟨"A", "a", .source, ⟨"a", .empty⟩, [], ["c*"], none⟩,
     ⟨"c*", "combine", .collector,
       ⟨"combine", .ofList [("value", ⟨"value", none, some "x", false, []⟩)]⟩, ["A"], ["cK"], none⟩,
     ⟨"cK", "combine", .collector,
       ⟨"combine", .ofList [("value", ⟨"value", none, some "y", false, []⟩)]⟩, ["c*"], ["T"], none⟩,
     ⟨"T", "t", .target, ⟨"t", .empty⟩, ["cK"], [], none⟩], .empty⟩

def loopingScript : Script :=
  ⟨"looping", .empty,
    [.collect ⟨"combine", "@c*", .ofList [("value", "x")], [⟨"a", some "A", none, []⟩]⟩,
     .collect ⟨"combine", "@cK", .ofList [("value", "y")], [⟨"@c*", some "c*", none, []⟩]⟩,
     .data ⟨"@cK", some "t", none, []⟩], .empty, .empty⟩

/-- The second collector feeds itself, until its value has come through too many variables. -/
theorem compile_looping_deep : looping.compile = .ok loopingScript ∧
    looping.NestsWithin Refusal.maxDepth ∧
    (∀ c ∈ looping.sources, '*' ∉ c.path.toList ∧ Script.isVariable c.path = false) ∧
    (∀ c ∈ looping.targets, Script.isVariable c.path = false) ∧
    ∃ m, Morph.ofScript loopingScript = .ok m ∧
      (m.run [.startRecord "r", .literal "a" "v"]).refusal = some (.tooDeep "@cK") := by
  have hcompile : looping.compile = .ok loopingScript := by decide +kernel
  have hwell := wellFormed_of_compileIssues (compile_ok hcompile).1
  have hrun : ((Morph.ofScript loopingScript).toOption.map fun m =>
      (m.run [.startRecord "r", .literal "a" "v"]).refusal) = some (some (.tooDeep "@cK")) := by
    decide +kernel
  have hnests : looping.NestsWithin Refusal.maxDepth := by
    intro cs hcs hchain
    exact Nat.le_trans (nestsWithin_collectors hwell cs hcs hchain) (by decide)
  exact ⟨hcompile, hnests, by decide +kernel, by decide +kernel, toOption_map_eq_some.1 hrun⟩

end Job
end Recast
