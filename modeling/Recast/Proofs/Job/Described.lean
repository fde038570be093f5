import Mathlib.Data.List.Forall2
import Mathlib.Logic.Relation
import Recast.Job.Description

/-!
# Described — what a description of a job is refused for

The faults of a description are those of its components, one component after the other, and then
those of the wiring of the components whose type is known, less what merely follows from a component
of unknown type.  What follows is said without following inputs (`Job.Description.Follows`), and what
is wrong with parameters without building them (`ParameterDescription.repeated`).  The main statement
is `Job.Description.described`.
-/

namespace Recast

/-! ## Following inputs on any graph

An id mentions the inputs of the first component that has it, and whatever these mention in turn.
Inputs may lead to ids that no component has, and they may lead back. -/

namespace Job

variable {j : Job} {visited pending : List String} {id i : String}

/-- The first component with an id has an input. -/
def HasInput (j : Job) (id i : String) : Prop :=
  ∃ c, j.component? id = some c ∧ i ∈ c.inputs

/-- An id leads to another one, by one input or by several. -/
def Mentions (j : Job) : String → String → Prop :=
  Relation.TransGen j.HasInput

/-- Nothing is found but what one of the pending ids mentions. -/
theorem mentions_of_mem (h : i ∈ j.mentioned visited pending) : ∃ id ∈ pending, j.Mentions id i := by
  fun_induction mentioned j visited pending with
  | case1 => cases h
  -- an id that has been visited, and one that no component has, are passed over
  | case2 visited id rest _ ih =>
      obtain ⟨id', hid', hi⟩ := ih h
      exact ⟨id', List.mem_cons_of_mem _ hid', hi⟩
  | case3 visited id rest _ _ ih =>
      obtain ⟨id', hid', hi⟩ := ih h
      exact ⟨id', List.mem_cons_of_mem _ hid', hi⟩
  -- the inputs of the component are mentioned, and what they mention is looked for next
  | case4 visited id rest _ c hc ih =>
      rcases List.mem_append.1 h with h | h
      · exact ⟨id, List.mem_cons_self, .single ⟨c, hc, h⟩⟩
      · obtain ⟨id', hid', hi⟩ := ih h
        rcases List.mem_append.1 hid' with hid' | hid'
        · exact ⟨id, List.mem_cons_self, .head ⟨c, hc, hid'⟩ hi⟩
        · exact ⟨id', List.mem_cons_of_mem _ hid', hi⟩

/-- What is pending and what has been found is followed, unless it has been visited before. -/
theorem mem_mentioned_of_hasInput (hnew : id ∉ visited)
    (hid : id ∈ pending ∨ id ∈ j.mentioned visited pending) (hi : j.HasInput id i) :
    i ∈ j.mentioned visited pending := by
  fun_induction mentioned j visited pending with
  | case1 => simp at hid
  -- the id is another one than the visited one that is passed over
  | case2 visited id' rest hvisited ih =>
      refine ih hnew (hid.imp_left fun hid => ?_)
      exact (List.mem_cons.1 hid).resolve_left fun e => hnew (e ▸ hvisited)
  | case3 visited id' rest _ hnone ih =>
      refine ih hnew (hid.imp_left fun hid => ?_)
      refine (List.mem_cons.1 hid).resolve_left fun e => ?_
      obtain ⟨c, hc, -⟩ := hi
      rw [e, hnone] at hc
      cases hc
  -- either this is the component, or the id is still to come
  | case4 visited id' rest _ c hc ih =>
      by_cases hsame : id = id'
      · obtain ⟨c', hc', hi⟩ := hi
        rw [hsame, hc] at hc'
        exact List.mem_append_left _ (Option.some.inj hc' ▸ hi)
      · refine List.mem_append_right _ (ih (by simp [hsame, hnew]) ?_)
        rcases hid with hid | hid
        · exact .inl (List.mem_append_right _ ((List.mem_cons.1 hid).resolve_left hsame))
        · rcases List.mem_append.1 hid with hid | hid
          · exact .inl (List.mem_append_left _ hid)
          · exact .inr hid

/-- Following inputs from an id finds all that it mentions. -/
theorem mem_mentioned_iff : i ∈ j.mentioned [] [id] ↔ j.Mentions id i := by
  constructor
  · intro h
    obtain ⟨id', hid', hi⟩ := mentions_of_mem h
    exact List.mem_singleton.1 hid' ▸ hi
  · intro h
    induction h with
    | single hi => exact mem_mentioned_of_hasInput (by simp) (.inl (by simp)) hi
    | tail _ hi ih => exact mem_mentioned_of_hasInput (by simp) (.inr ih) hi

end Job

/-! ## Names of parameters -/

namespace ParameterDescription

def bound (p : String × ParameterDescription) : String :=
  p.2.name.getD p.1

/-- No name is bound twice, at any level. -/
inductive Distinct : List (String × ParameterDescription) → Prop
  | level {ps : List (String × ParameterDescription)} (names : (ps.map bound).Nodup)
      (nested : ∀ p ∈ ps, Distinct p.2.parameters) : Distinct ps

mutual
/-- The names of a level that have been bound before: for each parameter in its order those within
it, and then its own. -/
def repeated (component : String) (label : String → String) (earlier : List String) :
    List (String × ParameterDescription) → List Issue
  | [] => []
  | p :: rest =>
      repeatedWithin component p ++
        (if bound p ∈ earlier then [.duplicateParameter component (label (bound p))] else []) ++
        repeated component label (bound p :: earlier) rest

/-- The names within a parameter that have been bound before, each behind the key of the
parameter. -/
def repeatedWithin (component : String) : String × ParameterDescription → List Issue
  | (key, ⟨_, _, _, _, ps⟩) => repeated component (fun n => s!"{key}.{n}") [] ps
end

/-- A keyed parameter is kept under the name that it binds. -/
theorem parameter_name (component : String) (p : String × ParameterDescription) :
    (entry component p).1.name = bound p := by
  obtain ⟨key, name, type, data, repeats_, ps⟩ := p
  rfl

theorem isSome_get?_iff {done : List (String × Parameter)} {n : String} :
    (Assoc.get? n done).isSome = true ↔ n ∈ Assoc.keys done := by
  rw [Option.isSome_iff_ne_none, ne_eq, Assoc.get?_eq_none_iff, Classical.not_not]

mutual
/-- Building parameters finds the names that have been bound before. -/
theorem entries_snd {component : String} {label : String → String} {earlier : List String}
    {done : List (String × Parameter)} : ∀ ps : List (String × ParameterDescription),
      (∀ n, n ∈ earlier ↔ n ∈ Assoc.keys done) →
      (entries component label done ps).2 = repeated component label earlier ps
  | [], _ => by rw [entries, repeated]
  | p :: rest, h => by
      rw [entries, repeated, ← entry_snd p, ← parameter_name component p]
      simp only [isSome_get?_iff]
      by_cases hbound : (entry component p).1.name ∈ Assoc.keys done
      · -- the name is there already, and the parameters stay as they are
        have hrest : (entries component label done rest).2 =
            repeated component label ((entry component p).1.name :: earlier) rest :=
          entries_snd rest fun n => by
            rw [List.mem_cons, h, or_iff_right_of_imp fun e => e ▸ hbound]
        rw [if_pos hbound, if_pos ((h _).2 hbound), ← hrest, List.append_assoc]
        rfl
      · have hrest : (entries component label
              (Assoc.put (entry component p).1.name (entry component p).1 done) rest).2 =
            repeated component label ((entry component p).1.name :: earlier) rest :=
          entries_snd rest fun n => by
            rw [List.mem_cons, h, Assoc.keys_put, if_neg hbound, List.mem_append,
              List.mem_singleton, or_comm]
        rw [if_neg hbound, if_neg fun hin => hbound ((h _).1 hin), List.append_nil, ← hrest]

/-- The faults of a keyed parameter are the names repeated within it. -/
theorem entry_snd {component : String} :
    ∀ p : String × ParameterDescription, (entry component p).2 = repeatedWithin component p
  | (key, ⟨_, _, _, _, ps⟩) => by
      rw [entry, parameter, repeatedWithin]
      exact entries_snd ps (by simp)
end

section Distinct

variable {component : String}

mutual
/-- Nothing is repeated only if names are new and distinct, at every level. -/
theorem distinct_of_repeated {label : String → String} {earlier : List String} :
    ∀ ps : List (String × ParameterDescription), repeated component label earlier ps = [] →
      (ps.map bound).Nodup ∧ (∀ p ∈ ps, bound p ∉ earlier) ∧ ∀ p ∈ ps, Distinct p.2.parameters
  | [], _ => by simp
  | p :: rest, h => by
      rw [repeated, List.append_eq_nil_iff, List.append_eq_nil_iff] at h
      obtain ⟨⟨hwithin, hnew⟩, hrest⟩ := h
      obtain ⟨hnodup, hfresh, hnested⟩ := distinct_of_repeated rest hrest
      have hp : bound p ∉ earlier := by
        intro hin
        rw [if_pos hin] at hnew
        cases hnew
      -- the name of the first is among the earlier ones of the rest
      have hfirst : bound p ∉ rest.map bound := by
        intro hmem
        obtain ⟨q, hq, hsame⟩ := List.mem_map.1 hmem
        exact hfresh q hq (hsame ▸ List.mem_cons_self)
      have hearlier : ∀ q ∈ rest, bound q ∉ earlier := by
        intro q hq hin
        exact hfresh q hq (List.mem_cons_of_mem _ hin)
      exact ⟨List.nodup_cons.2 ⟨hfirst, hnodup⟩, List.forall_mem_cons.2 ⟨hp, hearlier⟩,
        List.forall_mem_cons.2 ⟨distinct_of_repeatedWithin p hwithin, hnested⟩⟩

/-- Without repeated names within a parameter, all its names are distinct. -/
theorem distinct_of_repeatedWithin : ∀ p : String × ParameterDescription,
    repeatedWithin component p = [] → Distinct p.2.parameters
  | (key, ⟨_, _, _, _, ps⟩), h => by
      rw [repeatedWithin] at h
      obtain ⟨hnodup, -, hnested⟩ := distinct_of_repeated ps h
      exact .level hnodup hnested
end

/-- If every parameter of a level has distinct names within it, only the names of the level itself
can be repeated. -/
theorem repeated_eq_nil {label : String → String} {earlier : List String}
    {ps : List (String × ParameterDescription)}
    (hwithin : ∀ p ∈ ps, repeatedWithin component p = []) (hnodup : (ps.map bound).Nodup)
    (hfresh : ∀ p ∈ ps, bound p ∉ earlier) : repeated component label earlier ps = [] := by
  induction ps generalizing earlier with
  | nil => rw [repeated]
  | cons p rest ih =>
      rw [List.map_cons, List.nodup_cons] at hnodup
      obtain ⟨hp, hrest⟩ := List.forall_mem_cons.1 hfresh
      obtain ⟨hwithinp, hwithinrest⟩ := List.forall_mem_cons.1 hwithin
      -- the name of the first is among the earlier ones from here on
      have hfreshrest : ∀ q ∈ rest, bound q ∉ bound p :: earlier := by
        intro q hq hin
        rcases List.mem_cons.1 hin with hsame | hin
        · exact hnodup.1 (hsame ▸ List.mem_map_of_mem hq)
        · exact hrest q hq hin
      rw [repeated, hwithinp, if_neg hp, List.nil_append, List.nil_append]
      exact ih hwithinrest hnodup.2 hfreshrest

/-- There are no repeated names just where all are distinct. -/
theorem repeated_eq_nil_iff {label : String → String}
    {ps : List (String × ParameterDescription)} :
    repeated component label [] ps = [] ↔ Distinct ps := by
  constructor
  · intro h
    obtain ⟨hnodup, -, hnested⟩ := distinct_of_repeated ps h
    exact .level hnodup hnested
  · intro h
    induction h generalizing label with
    | @level ps hnodup hnested ih =>
        refine repeated_eq_nil (fun p hp => ?_) hnodup (by simp)
        obtain ⟨key, name, type, data, repeats, inner⟩ := p
        rw [repeatedWithin]
        exact ih _ hp

end Distinct

/-- Distinct names are the keys of the parameters, in their order. -/
theorem keys_entries {component : String} {label : String → String}
    {done : List (String × Parameter)} {ps : List (String × ParameterDescription)}
    (h : (Assoc.keys done ++ ps.map bound).Nodup) :
    Assoc.keys (entries component label done ps).1 = Assoc.keys done ++ ps.map bound := by
  induction ps generalizing done with
  | nil => simp [entries]
  | cons p rest ih =>
      -- a name that is new makes the parameter the last one
      have hnew : bound p ∉ Assoc.keys done := by
        intro hmem
        rw [List.nodup_append] at h
        exact h.2.2 _ hmem _ (by simp) rfl
      have hkeys : Assoc.keys (Assoc.put (bound p) (entry component p).1 done) =
          Assoc.keys done ++ [bound p] := by
        rw [Assoc.keys_put, if_neg hnew]
      rw [entries]
      simp only [isSome_get?_iff, parameter_name, if_neg hnew]
      rw [ih (by simpa [hkeys] using h), hkeys]
      simp

end ParameterDescription

/-! ## Components -/

namespace ComponentDescription

open ParameterDescription

/-- The parameters of a component: those of its payload and its own. -/
def allParameters (c : ComponentDescription) : List (String × ParameterDescription) :=
  (c.payload.elim [] PayloadDescription.parameters) ++ c.parameters

/-- The type of a component is the word for a kind. -/
def Typed (c : ComponentDescription) : Prop :=
  (Kind.ofAuthored? c.type).isSome = true

instance (c : ComponentDescription) : Decidable c.Typed :=
  inferInstanceAs (Decidable (_ = true))

def faults (c : ComponentDescription) : List Issue :=
  if c.Typed then repeated c.id (fun n => n) [] c.allParameters
  else [.unknownComponentType c.id c.type]

/-- A component is the one that is described. -/
structure Describes (c : ComponentDescription) (k : Component) : Prop where
  id : k.id = c.id
  name : k.name = (c.name.or (c.payload.bind PayloadDescription.name)).getD c.id
  kind : Kind.ofAuthored? c.type = some k.kind
  inputs : k.inputs = c.inputs
  outputs : k.outputs = c.outputs
  filter : k.filter = c.filter
  parameters : Distinct c.allParameters →
    k.payload.parameters.keys = c.allParameters.map ParameterDescription.bound

variable {c : ComponentDescription}

/-- A component of a known type is what its description says, with names filled in. -/
theorem component_eq (kind : Kind) : c.component kind =
    (⟨c.id, (c.name.or (c.payload.bind PayloadDescription.name)).getD c.id, kind,
      ⟨(c.payload.bind PayloadDescription.name).getD
        ((c.name.or (c.payload.bind PayloadDescription.name)).getD c.id),
        .ofList (entries c.id (fun n => n) [] c.allParameters).1⟩, c.inputs, c.outputs, c.filter⟩,
      (entries c.id (fun n => n) [] c.allParameters).2) := by
  unfold component allParameters
  cases c.payload <;> rfl

/-- The faults of a component are its type or its repeated names. -/
theorem typed_snd (c : ComponentDescription) : c.typed.2 = c.faults := by
  unfold typed
  split
  · rename_i hkind
    rw [faults, if_neg (by simp [Typed, hkind])]
  · rename_i kind hkind
    have hnone : ∀ n, n ∈ [] ↔ n ∈ Assoc.keys ([] : List (String × Parameter)) := by simp
    rw [faults, if_pos (by simp [Typed, hkind]), ← entries_snd _ hnone, component_eq]

theorem typed_fst_eq_none (h : ¬ c.Typed) : c.typed.1 = none := by
  unfold typed
  split
  · rfl
  · rename_i kind hkind
    exact absurd (by simp [Typed, hkind]) h

/-- A component whose type is known is built as it is described. -/
theorem exists_typed (h : c.Typed) : ∃ k, c.typed.1 = some k ∧ c.Describes k := by
  obtain ⟨kind, hkind⟩ := Option.isSome_iff_exists.1 h
  refine ⟨(c.component kind).1, by rw [typed, hkind], ?_⟩
  rw [component_eq]
  refine ⟨rfl, rfl, hkind, rfl, rfl, rfl, fun hdistinct => ?_⟩
  cases hdistinct with
  | level hnodup _ =>
      have hkeys : Assoc.keys (entries c.id (fun n => n) [] c.allParameters).1 =
          Assoc.keys ([] : List (String × Parameter)) ++ c.allParameters.map bound :=
        keys_entries (by simpa using hnodup)
      rw [Assoc.keys_nil, List.nil_append] at hkeys
      rw [← hkeys]
      exact congrArg Assoc.keys (Assoc.ofList_of_nodup (hkeys ▸ hnodup))

end ComponentDescription

/-! ## Kinds of faults -/

/-- Whether a fault is found on a component with its wires by itself. -/
def Issue.ofWires : Issue → Bool
  | .sourceWithInputs _ | .targetWithOutputs _ | .unwired .. | .danglingInput ..
  | .danglingOutput .. | .forwardReference .. | .asymmetricWiring .. => true
  | .duplicateComponent _ | .duplicateParameter .. | .unknownComponentType ..
  | .unreachableTarget _ => false

namespace Job

variable {j : Job} {issue : Issue}

theorem exists_of_mem_duplicateIssues {seen : List String} {cs : List Component}
    (h : issue ∈ duplicateIssues seen cs) : ∃ id, issue = .duplicateComponent id := by
  induction cs generalizing seen with
  | nil => cases h
  | cons c rest ih =>
      rcases List.mem_append.1 h with h | h
      · split at h
        · exact ⟨c.id, List.mem_singleton.1 h⟩
        · cases h
      · exact ih h

/-- The faults of the wires of a component are found on it by itself. -/
theorem ofWires_of_mem_componentIssues {i : Nat} {c : Component}
    (h : issue ∈ j.componentIssues i c) : issue.ofWires = true := by
  simp only [componentIssues, List.mem_append, List.mem_flatMap] at h
  -- the issues of the component itself, of its inputs and of its outputs
  rcases h with (h | ⟨input, -, h⟩) | ⟨output, -, h⟩
  · unfold kindIssues at h
    split at h <;> split at h <;> simp at h <;> subst h <;> rfl
  · unfold inputIssues at h
    split at h
    · rw [List.mem_singleton.1 h]
      rfl
    · split at h <;> simp at h
      subst h
      rfl
  · unfold outputIssues at h
    split at h
    · rw [List.mem_singleton.1 h]
      rfl
    · split at h
      · split at h <;> simp at h
        subst h
        rfl
      · cases h

theorem ofWires_of_mem_allComponentIssues {i : Nat} {cs : List Component}
    (h : issue ∈ j.allComponentIssues i cs) : issue.ofWires = true := by
  induction cs generalizing i with
  | nil => cases h
  | cons c rest ih =>
      rcases List.mem_append.1 h with h | h
      · exact ofWires_of_mem_componentIssues h
      · exact ih h

end Job

/-! ## Descriptions -/

namespace Job.Description

open ParameterDescription

variable {d : Job.Description} {j : Job}

/-- An id is that of a component of unknown type. -/
def Untyped (d : Job.Description) (id : String) : Prop :=
  ∃ c ∈ d.components, c.id = id ∧ ¬ c.Typed

/-- A fault of the wiring merely follows from a component of unknown type: a wire to it, or a target
that reads from it, directly or through others. -/
inductive Follows (d : Job.Description) : Issue → Prop
  | input (component : String) {id : String} (h : d.Untyped id) :
      Follows d (.danglingInput component id)
  | output (component : String) {id : String} (h : d.Untyped id) :
      Follows d (.danglingOutput component id)
  | target {target id : String} (hread : d.known.Mentions target id) (h : d.Untyped id) :
      Follows d (.unreachableTarget target)

/-- The unknown ids are those of components of unknown type. -/
theorem mem_unknownIds_iff {id : String} : id ∈ d.unknownIds ↔ d.Untyped id := by
  simp only [unknownIds, List.mem_map, List.mem_filter, Untyped, ComponentDescription.Typed,
    Option.isNone_iff_eq_none, Option.isSome_iff_ne_none]
  grind

instance (d : Job.Description) (id : String) : Decidable (d.Untyped id) :=
  decidable_of_iff (id ∈ d.unknownIds) mem_unknownIds_iff

/-- A target that is not reached is a consequence if it reads from a component of unknown type,
however far away. -/
theorem follows_target_iff {target : String} : d.Follows (.unreachableTarget target) ↔
    (d.known.mentioned [] [target]).any (fun i => i ∈ d.unknownIds) = true := by
  simp only [List.any_eq_true, decide_eq_true_iff, mem_mentioned_iff, mem_unknownIds_iff]
  constructor
  · rintro ⟨⟩
    exact ⟨_, by assumption, by assumption⟩
  · rintro ⟨id, hread, h⟩
    exact .target hread h

instance (d : Job.Description) : DecidablePred d.Follows
  | .danglingInput c _ => decidable_of_iff (d.Untyped _) ⟨.input c, fun | .input _ h => h⟩
  | .danglingOutput c _ => decidable_of_iff (d.Untyped _) ⟨.output c, fun | .output _ h => h⟩
  | .unreachableTarget _ => decidable_of_iff _ follows_target_iff.symm
  | .duplicateComponent _ | .duplicateParameter .. | .unknownComponentType .. | .sourceWithInputs _
  | .targetWithOutputs _ | .unwired .. | .forwardReference .. | .asymmetricWiring .. =>
      .isFalse nofun

/-- A target that is reported as unreachable is a target. -/
theorem exists_target_of_mem_issues {target : String} (h : .unreachableTarget target ∈ j.issues) :
    ∃ t ∈ j.targets, t.id = target := by
  rw [Job.issues, List.mem_append, List.mem_append] at h
  rcases h with (h | h) | h
  · obtain ⟨_, heq⟩ := exists_of_mem_duplicateIssues h
    cases heq
  · exact absurd (ofWires_of_mem_allComponentIssues h) (by simp [Issue.ofWires])
  · obtain ⟨t, ht, hid⟩ := List.mem_map.1 h
    exact ⟨t, (List.mem_filter.1 ht).1, Issue.unreachableTarget.inj hid⟩

/-- Of the faults of the wiring those are left out that follow from a component of unknown type. -/
theorem isConsequence_eq {issue : Issue} (h : issue ∈ d.known.issues) :
    isConsequence d.known d.unknownIds issue = decide (d.Follows issue) := by
  rw [Bool.eq_iff_iff, decide_eq_true_iff]
  cases issue with
  -- only these three kinds can follow from a component that has been left out
  | danglingInput c id =>
      rw [isConsequence, decide_eq_true_iff, mem_unknownIds_iff]
      exact ⟨.input c, fun | .input _ h => h⟩
  | danglingOutput c id =>
      rw [isConsequence, decide_eq_true_iff, mem_unknownIds_iff]
      exact ⟨.output c, fun | .output _ h => h⟩
  | unreachableTarget target =>
      obtain ⟨t, ht, hid⟩ := exists_target_of_mem_issues h
      have htarget : (d.known.targets.any fun t => t.id = target) = true :=
        List.any_eq_true.2 ⟨t, ht, by simpa using hid⟩
      rw [isConsequence, htarget, Bool.true_and, follows_target_iff]
  | _ => exact ⟨nofun, nofun⟩

/-- The components whose type is known, in their order, are those of the job. -/
theorem describes_known (d : Job.Description) : List.Forall₂ ComponentDescription.Describes
    (d.components.filter fun c => c.Typed) d.known.components := by
  unfold known
  simp only
  generalize d.components = cs
  induction cs with
  | nil => exact .nil
  | cons c rest ih =>
      -- a component that is typed is described by what it has become, any other is left out
      by_cases h : c.Typed
      · obtain ⟨k, hk, hdescribes⟩ := ComponentDescription.exists_typed h
        rw [List.filter_cons_of_pos (by simpa using h), List.filterMap_cons, hk]
        exact .cons hdescribes ih
      · rw [List.filter_cons_of_neg (by simpa using h), List.filterMap_cons,
          ComponentDescription.typed_fst_eq_none h]
        exact ih

/-- The faults of a description are those of its components, and those of the wiring that are no
consequences. -/
theorem issues_eq (d : Job.Description) : d.issues =
    d.components.flatMap ComponentDescription.faults ++
      d.known.issues.filter fun issue => ¬ d.Follows issue := by
  simp only [issues, ComponentDescription.typed_snd]
  refine congrArg _ (List.filter_congr fun issue h => ?_)
  rw [isConsequence_eq h, decide_not]

/-- A component by itself has no faults if its type is known and its parameters bind each name
once. -/
theorem faults_eq_nil_iff {c : ComponentDescription} :
    c.faults = [] ↔ c.Typed ∧ Distinct c.allParameters := by
  unfold ComponentDescription.faults
  by_cases h : c.Typed
  · rw [if_pos h, repeated_eq_nil_iff, and_iff_right h]
  · rw [if_neg h]
    simp [h]

/-- If every type is known, no fault of the wiring follows from an unknown one. -/
theorem not_follows (h : ∀ c ∈ d.components, c.Typed) (issue : Issue) : ¬ d.Follows issue := by
  rintro (⟨-, c, hc, -, hno⟩ | ⟨-, c, hc, -, hno⟩ | ⟨-, c, hc, -, hno⟩) <;> exact hno (h c hc)

/-- A description has no faults if its types are known, its names distinct and its wiring sound. -/
theorem no_issues_iff : d.issues = [] ↔ (∀ c ∈ d.components, c.Typed) ∧
    (∀ c ∈ d.components, Distinct c.allParameters) ∧ d.known.issues = [] := by
  rw [issues_eq, List.append_eq_nil_iff, List.flatMap_eq_nil_iff]
  simp only [faults_eq_nil_iff]
  constructor
  · rintro ⟨hcomponents, hwiring⟩
    have htyped : ∀ c ∈ d.components, c.Typed := fun c hc => (hcomponents c hc).1
    refine ⟨htyped, fun c hc => (hcomponents c hc).2, ?_⟩
    rw [List.filter_eq_self.2 fun issue _ => by simpa using not_follows htyped issue] at hwiring
    exact hwiring
  · rintro ⟨htyped, hdistinct, hwiring⟩
    exact ⟨fun c hc => ⟨htyped c hc, hdistinct c hc⟩, by rw [hwiring, List.filter_nil]⟩

/-- A description has a job if it has no faults. -/
theorem job_eq_ok_iff : d.job = .ok j ↔ d.issues = [] ∧ j = d.known := by
  unfold job
  split
  · rename_i hnil
    simp [hnil, eq_comm]
  · rename_i hne
    exact ⟨nofun, fun h => absurd h.1 hne⟩

/-- The faults of a description are those of its components by themselves, in their order, and then
those of the wiring of the components whose type is known, in the order in which the wiring is
checked, without just those that follow from a component of unknown type.  There is a job if and only
if every type is known, no parameter binds a name twice at any level, and the wiring has no fault at
all; then it has all components in their order. -/
theorem described (d : Job.Description) :
    (d.job = match d.components.flatMap ComponentDescription.faults ++
        d.known.issues.filter fun issue => ¬ d.Follows issue with
      | [] => .ok d.known
      | issues => .error issues) ∧
    List.Forall₂ ComponentDescription.Describes (d.components.filter fun c => c.Typed)
      d.known.components ∧
    ((∃ j, d.job = .ok j) ↔ (∀ c ∈ d.components, c.Typed) ∧
      (∀ c ∈ d.components, Distinct c.allParameters) ∧ d.known.issues = []) ∧
    ∀ j, d.job = .ok j → List.Forall₂ ComponentDescription.Describes d.components j.components := by
  refine ⟨?_, describes_known d, ?_, ?_⟩
  · rw [← issues_eq]
    rfl
  · rw [← no_issues_iff]
    constructor
    · rintro ⟨j, hj⟩
      exact (job_eq_ok_iff.1 hj).1
    · intro h
      exact ⟨d.known, job_eq_ok_iff.2 ⟨h, rfl⟩⟩
  · intro j hj
    obtain ⟨hissues, rfl⟩ := job_eq_ok_iff.1 hj
    -- where there is no issue, no component has been left out
    have htyped : d.components.filter (fun c => c.Typed) = d.components := by
      refine List.filter_eq_self.2 fun c hc => ?_
      simpa using (no_issues_iff.1 hissues).1 c hc
    have hall := describes_known d
    rwa [htyped] at hall

end Job.Description
end Recast
