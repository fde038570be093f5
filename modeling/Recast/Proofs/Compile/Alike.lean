import Recast.Proofs.Compile.Draft

/-!
# Alike — what of a component counts

Two components have the same *wires* if they have the same id, the same kind, and the same inputs and
outputs.  Nothing else counts for the faults of the wiring: `Job.issues_wires`.  They are *alike* if
they leave the same in a script and have the same faults as well; the rest of their parameters does
not count for compilation.

Main statement: `Job.compile_alike`.  Jobs whose components are alike have the same script, or are
refused for the same reasons.
-/

namespace Recast

/-! ## Wires -/

/-- Two components are wired in the same way. -/
structure Component.SameWires (c c' : Component) : Prop where
  id : c.id = c'.id
  kind : c.kind = c'.kind
  inputs : c.inputs = c'.inputs
  outputs : c.outputs = c'.outputs

namespace Job

open Component (SameWires)

variable {cs cs' : List Component} {c c' : Component} {j k : Job}

/-- Components that are wired in the same way stand at the same places. -/
theorem position?_wires (h : List.Forall₂ SameWires cs cs') (id : String) :
    position? id cs = position? id cs' := by
  induction h with
  | nil => rfl
  | cons hc _ ih => rw [position?, position?, ih, hc.id]

theorem duplicateIssues_wires (h : List.Forall₂ SameWires cs cs') (seen : List String) :
    duplicateIssues seen cs = duplicateIssues seen cs' := by
  induction h generalizing seen with
  | nil => rfl
  | cons hc _ ih => rw [duplicateIssues, duplicateIssues, ih, hc.id]

theorem kindIssues_wires (h : c.SameWires c') : kindIssues c = kindIssues c' := by
  rw [kindIssues, kindIssues, h.id, h.kind, h.inputs, h.outputs]

theorem reached_wires (h : List.Forall₂ SameWires cs cs') : reached cs = reached cs' := by
  refine foldl_eq_of_forall₂ h (fun c c' hc ids => ?_) []
  simp only [hc.id, hc.kind, hc.inputs]

section Components

variable (h : List.Forall₂ SameWires j.components k.components)

include h

theorem inputIssues_wires (hc : c.SameWires c') (i : Nat) :
    j.inputIssues i c = k.inputIssues i c' := by
  funext input
  rw [inputIssues, inputIssues, position?_wires h, hc.id]

theorem outputIssues_wires (hc : c.SameWires c') : j.outputIssues c = k.outputIssues c' := by
  have hreaders : ∀ i : Nat, j.components[i]?.map Component.inputs =
      k.components[i]?.map Component.inputs := by
    intro i
    rw [← List.getElem?_map, ← List.getElem?_map,
      map_eq_of_forall₂ h fun _ _ hreader => hreader.inputs]
  funext output
  rw [outputIssues, outputIssues, position?_wires h, hc.id]
  cases position? output k.components with
  | none => rfl
  | some i =>
      have hreader := hreaders i
      simp only
      -- the place has a reader in both jobs, with the same inputs, or in neither
      generalize j.components[i]? = reader, k.components[i]? = reader' at hreader
      cases reader <;> cases reader' <;> simp_all

theorem allComponentIssues_wires (hcs : List.Forall₂ SameWires cs cs') (i : Nat) :
    j.allComponentIssues i cs = k.allComponentIssues i cs' := by
  induction hcs generalizing i with
  | nil => rfl
  | cons hc _ ih =>
      rw [allComponentIssues, allComponentIssues, ih, componentIssues, componentIssues,
        kindIssues_wires hc, inputIssues_wires h hc, outputIssues_wires h hc, hc.inputs, hc.outputs]

theorem reachIssues_wires : j.reachIssues = k.reachIssues := by
  have htargets : List.Forall₂ SameWires j.targets k.targets :=
    filter_forall₂ h fun _ _ hc => by rw [hc.kind]
  have hunreached := filter_forall₂ htargets
    (p := fun t => t.inputs.all (fun i => (position? i j.components).isSome) &&
      t.id ∉ reached j.components)
    (q := fun t => t.inputs.all (fun i => (position? i k.components).isSome) &&
      t.id ∉ reached k.components)
    fun _ _ hc => by simp only [position?_wires h, reached_wires h, hc.id, hc.inputs]
  exact map_eq_of_forall₂ hunreached fun _ _ hc => by rw [hc.id]

/-- Jobs with the same wires have the same faults of their wiring. -/
theorem issues_wires : j.issues = k.issues := by
  rw [issues, issues, duplicateIssues_wires h, allComponentIssues_wires h h, reachIssues_wires h]

theorem component?_wires (id : String) :
    Option.Rel SameWires (j.component? id) (k.component? id) :=
  find?_forall₂ h fun _ _ hc => by rw [hc.id]

/-- In jobs with the same wires the same inputs are found. -/
theorem mentioned_wires (visited pending : List String) :
    j.mentioned visited pending = k.mentioned visited pending := by
  fun_induction mentioned j visited pending with
  | case1 visited => rw [mentioned]
  | case2 visited id rest hvisited ih => rw [mentioned, dif_pos hvisited, ih]
  | case3 visited id rest hvisited hnone ih =>
      -- the other job lacks the component too
      have hrel := component?_wires h id
      rw [hnone] at hrel
      rw [mentioned, dif_neg hvisited, ih]
      split
      · rfl
      · rename_i hsome
        rw [hsome] at hrel
        cases hrel
  | case4 visited id rest hvisited c hsome ih =>
      -- the other job has the component too, with the same inputs
      have hrel := component?_wires h id
      rw [hsome] at hrel
      rw [mentioned, dif_neg hvisited, ih]
      split
      · rename_i hnone
        rw [hnone] at hrel
        cases hrel
      · rename_i c' hsome'
        rw [hsome'] at hrel
        cases hrel with
        | some hc => rw [hc.inputs]

end Components

end Job

/-! ## Scripts -/

/-- Two components leave the same in a script and have the same faults. -/
structure Component.Alike (c c' : Component) : Prop extends c.SameWires c' where
  filter : c.filter = c'.filter
  path : c.path = c'.path
  ordinal : c.payload.data? ordinalParameter = c'.payload.data? ordinalParameter
  call : c.call = c'.call
  tables : c.arguments.filterMap c.table? = c'.arguments.filterMap c'.table?
  issues : c.compileIssues = c'.compileIssues

namespace Draft

open Component (Alike)

variable {cs cs' : List Component} {c c' : Component}

/-- Components that are alike leave the same call and the same tables. -/
theorem callOf_alike (h : c.Alike c') (d : Draft) : callOf c d = callOf c' d := by
  rw [callOf_eq, callOf_eq, h.call, h.tables]

/-- Sources that are alike leave the same rule. -/
theorem sourceRule_alike (h : c.Alike c') (d : Draft) : sourceRule c d = sourceRule c' d := by
  rw [sourceRule, sourceRule, h.ordinal, h.filter, h.path, h.id]

theorem closeCollector_alike (h : c.Alike c') (inputs : List Script.DataRule) (d : Draft) :
    closeCollector c inputs d = closeCollector c' inputs d := by
  rw [closeCollector, closeCollector, callOf_alike h, h.id]

/-- The rule that reads a component is the same where components that are alike are looked up. -/
theorem ruleFrom_alike (h : List.Forall₂ Alike cs cs') : ruleFrom cs = ruleFrom cs' := by
  induction h with
  | nil => rfl
  | cons hc _ ih =>
      funext id d
      rw [ruleFrom, ruleFrom, ih, hc.id, hc.kind, hc.inputs, sourceRule_alike hc]
      simp only [callOf_alike hc, closeCollector_alike hc]

/-- Targets that are alike add the same rule. -/
theorem addTarget_alike (h : List.Forall₂ Alike cs cs') (hc : c.Alike c') (d : Draft) :
    addTarget cs d c = addTarget cs' d c' := by
  have hreverse : ruleFrom cs.reverse = ruleFrom cs'.reverse :=
    ruleFrom_alike (List.rel_reverse h)
  rw [addTarget, addTarget, hreverse, hc.inputs, hc.id, hc.path]

end Draft

namespace Job

open Component (Alike)

variable {j k : Job}

/-- Jobs with components that are alike have the same faults. -/
theorem compileIssues_alike (h : List.Forall₂ Alike j.components k.components) :
    j.compileIssues = k.compileIssues := by
  rw [compileIssues, compileIssues, issues_wires (h.imp fun _ _ hc => hc.toSameWires),
    flatMap_eq_of_forall₂ h fun _ _ hc => hc.issues]

theorem foldlM_addTarget_alike {cs cs' ts ts' : List Component} (h : List.Forall₂ Alike cs cs')
    (hts : List.Forall₂ Alike ts ts') (d : Draft) :
    ts.foldlM (Draft.addTarget cs) d = ts'.foldlM (Draft.addTarget cs') d := by
  induction hts generalizing d with
  | nil => rfl
  | cons hc _ ih =>
      rw [List.foldlM_cons, List.foldlM_cons, Draft.addTarget_alike h hc]
      exact congrArg _ (funext ih)

/-- Jobs with components that are alike have the same draft. -/
theorem draft_alike (hname : j.name = k.name) (hvars : j.vars = k.vars)
    (h : List.Forall₂ Alike j.components k.components) : j.draft = k.draft := by
  have htargets : List.Forall₂ Alike j.targets k.targets :=
    filter_forall₂ h fun _ _ hc => by rw [hc.kind]
  rw [draft, draft, foldlM_addTarget_alike h htargets, hname, hvars]

/-- Jobs whose components are alike have the same script, or are refused for the same reasons. -/
theorem compile_alike (hname : j.name = k.name) (hvars : j.vars = k.vars)
    (h : List.Forall₂ Alike j.components k.components) : j.compile = k.compile := by
  rw [compile, compile, compileIssues_alike h, draft_alike hname hvars h]

end Job
end Recast
