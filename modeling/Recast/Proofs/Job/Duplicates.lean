import Recast.Proofs.Job.Described
import Recast.Proofs.Result

/-!
# Duplicates — ids that several components have

Ids are compared after the components of unknown type have been left out, so an id is reported as often
as it is repeated among the components of known type: `Job.Description.count_duplicates`.  A
description in which an id is repeated has no job either way, for whichever component is not counted is
reported for its type: `Job.Description.duplicates_reported`.
-/

namespace Recast

/-! ## Repeated ids of a job -/

namespace Job

variable {j : Job} {id : String}

/-- An id is reported once for each component that has it, except for the first one. -/
theorem count_duplicateIssues (seen : List String) (cs : List Component) :
    (duplicateIssues seen cs).count (.duplicateComponent id) =
      (cs.map Component.id).count id - if id ∈ seen then 0 else 1 := by
  induction cs generalizing seen with
  | nil => simp [duplicateIssues]
  | cons c rest ih =>
      rw [duplicateIssues, List.count_append, ih, List.map_cons, List.count_cons]
      by_cases hid : c.id = id
      · -- from here on the id has been seen
        subst hid
        by_cases hseen : c.id ∈ seen
        · simp [hseen, Nat.add_comm]
        · simp [hseen]
      · have hother : (if c.id ∈ seen then [Issue.duplicateComponent c.id] else []).count
            (.duplicateComponent id) = 0 := by
          refine List.count_eq_zero.2 fun hmem => ?_
          split at hmem
          · cases List.mem_singleton.1 hmem
            exact hid rfl
          · cases hmem
        have hsame : id ∈ c.id :: seen ↔ id ∈ seen := by
          rw [List.mem_cons, or_iff_right (Ne.symm hid)]
        simp only [hother, hsame, beq_iff_eq, hid, if_false, Nat.zero_add, Nat.add_zero]

/-- An id is reported as often as it occurs, less one. -/
theorem count_issues_duplicate :
    j.issues.count (.duplicateComponent id) = (j.components.map Component.id).count id - 1 := by
  -- neither the checks of the wires nor that of what is reached ever reports a duplicate
  have hwires : (j.allComponentIssues 0 j.components).count (.duplicateComponent id) = 0 :=
    List.count_eq_zero.2 fun h =>
      absurd (ofWires_of_mem_allComponentIssues h) (by simp [Issue.ofWires])
  have hreach : j.reachIssues.count (.duplicateComponent id) = 0 := by
    refine List.count_eq_zero.2 fun h => ?_
    obtain ⟨t, -, heq⟩ := List.mem_map.1 h
    cases heq
  calc j.issues.count (.duplicateComponent id)
      = (duplicateIssues [] j.components).count (.duplicateComponent id) +
          (j.allComponentIssues 0 j.components).count (.duplicateComponent id) +
          j.reachIssues.count (.duplicateComponent id) := by
        rw [issues, List.count_append, List.count_append]
    _ = (duplicateIssues [] j.components).count (.duplicateComponent id) := by
        rw [hwires, hreach]
        rfl
    _ = (j.components.map Component.id).count id - 1 := count_duplicateIssues [] j.components

end Job

/-! ## Faults of single components -/

namespace ParameterDescription

variable {component : String} {issue : Issue}

mutual
/-- What is wrong with parameters are the names of parameters. -/
theorem exists_of_mem_repeated {label : String → String} {earlier : List String} :
    ∀ ps : List (String × ParameterDescription), issue ∈ repeated component label earlier ps →
      ∃ name, issue = .duplicateParameter component name
  | [], h => by simp [repeated] at h
  | p :: rest, h => by
      rw [repeated, List.mem_append, List.mem_append] at h
      rcases h with (h | h) | h
      · exact exists_of_mem_repeatedWithin p h
      · split at h
        · exact ⟨_, List.mem_singleton.1 h⟩
        · cases h
      · exact exists_of_mem_repeated rest h

theorem exists_of_mem_repeatedWithin : ∀ p : String × ParameterDescription,
    issue ∈ repeatedWithin component p → ∃ name, issue = .duplicateParameter component name
  | (key, ⟨_, _, _, _, ps⟩), h => by
      rw [repeatedWithin] at h
      exact exists_of_mem_repeated ps h
end

end ParameterDescription

theorem ComponentDescription.duplicateComponent_not_mem_faults (c : ComponentDescription)
    (id : String) : .duplicateComponent id ∉ c.faults := by
  intro h
  rw [faults] at h
  split at h
  · obtain ⟨_, heq⟩ := ParameterDescription.exists_of_mem_repeated _ h
    cases heq
  · cases List.mem_singleton.1 h

/-! ## Repeated ids of a description -/

namespace Job.Description

variable {d : Job.Description} {id : String}

def typedIds (d : Job.Description) : List String :=
  (d.components.filter fun c => c.Typed).map ComponentDescription.id

/-- The known components are those of known type, in their order. -/
theorem ids_known (d : Job.Description) : d.known.components.map Component.id = d.typedIds :=
  (map_eq_of_forall₂ (describes_known d) fun _ _ hdescribes => hdescribes.id.symm).symm

/-- An id is reported as often as it is repeated among the components whose type is known. -/
theorem count_duplicates (d : Job.Description) (id : String) :
    d.issues.count (.duplicateComponent id) = d.typedIds.count id - 1 := by
  have hfaults : (d.components.flatMap ComponentDescription.faults).count
      (.duplicateComponent id) = 0 := by
    refine List.count_eq_zero.2 fun h => ?_
    obtain ⟨c, -, hmem⟩ := List.mem_flatMap.1 h
    exact c.duplicateComponent_not_mem_faults id hmem
  -- a repeated id follows from no other fault, so it is never left out
  have hkept : ¬ d.Follows (.duplicateComponent id) := by
    intro hfollows
    cases hfollows
  calc d.issues.count (.duplicateComponent id)
      = d.known.issues.count (.duplicateComponent id) := by
        rw [issues_eq, List.count_append, hfaults, Nat.zero_add,
          List.count_filter (by simpa using hkept)]
    _ = (d.known.components.map Component.id).count id - 1 := count_issues_duplicate
    _ = d.typedIds.count id - 1 := by rw [ids_known]

/-- A component of unknown type is reported. -/
theorem mem_issues_of_not_typed {c : ComponentDescription} (hc : c ∈ d.components)
    (h : ¬ c.Typed) : .unknownComponentType c.id c.type ∈ d.issues := by
  have hfault : .unknownComponentType c.id c.type ∈ c.faults := by
    rw [ComponentDescription.faults, if_neg h]
    exact List.mem_singleton_self _
  rw [issues_eq]
  exact List.mem_append_left _ (List.mem_flatMap.2 ⟨c, hc, hfault⟩)

/-- If all components with an id are of known type, none of them is missing. -/
theorem count_typedIds (h : ∀ c ∈ d.components, c.id = id → c.Typed) :
    d.typedIds.count id = (d.components.map ComponentDescription.id).count id := by
  unfold typedIds
  generalize d.components = cs at h ⊢
  induction cs with
  | nil => rfl
  | cons c rest ih =>
      obtain ⟨hc, hrest⟩ := List.forall_mem_cons.1 h
      by_cases htyped : c.Typed
      · rw [List.filter_cons_of_pos (by simpa using htyped), List.map_cons, List.map_cons,
          List.count_cons, List.count_cons, ih hrest]
      · -- an untyped component has another id and counts on neither side
        have hne : ¬ c.id = id := mt hc htyped
        rw [List.filter_cons_of_neg (by simpa using htyped), List.map_cons, List.count_cons,
          ih hrest]
        simp [hne]

/-- A description with faults has no job, and all faults are told. -/
theorem job_eq_error (h : d.issues ≠ []) : d.job = .error d.issues := by
  unfold job
  split
  · rename_i hnil
    exact absurd hnil h
  · rfl

/-- If an id is repeated there is no job.  The id is reported if and only if at least two of the
components that have it are of known type, and then once for each of these except for one; the others
are reported for their types. -/
theorem duplicates_reported (h : 2 ≤ (d.components.map ComponentDescription.id).count id) :
    ∃ issues, d.job = .error issues ∧
      (.duplicateComponent id ∈ issues ↔ 2 ≤ d.typedIds.count id) ∧
      issues.count (.duplicateComponent id) = d.typedIds.count id - 1 ∧
      ∀ c ∈ d.components, c.id = id → ¬ c.Typed → .unknownComponentType id c.type ∈ issues := by
  have hreported : .duplicateComponent id ∈ d.issues ↔ 2 ≤ d.typedIds.count id := by
    rw [← List.count_pos_iff, count_duplicates]
    omega
  have hissues : d.issues ≠ [] := by
    by_cases hall : ∀ c ∈ d.components, c.id = id → c.Typed
    · -- all of them are counted
      rw [← count_typedIds hall] at h
      exact List.ne_nil_of_mem (hreported.2 h)
    · obtain ⟨c, hc, -, hnot⟩ : ∃ c ∈ d.components, c.id = id ∧ ¬ c.Typed := by
        simpa using hall
      exact List.ne_nil_of_mem (mem_issues_of_not_typed hc hnot)
  refine ⟨d.issues, job_eq_error hissues, hreported, count_duplicates d id, ?_⟩
  rintro c hc rfl hnot
  exact mem_issues_of_not_typed hc hnot

def bare (cs : List (String × String)) : Job.Description :=
  ⟨none, "bare", .empty, cs.map fun c => ⟨c.1, none, c.2, [], [], [], none, none⟩⟩

theorem duplicates_reported_thrice :
    let d := bare [("a", "bogus"), ("a", "source"), ("b", "source"), ("a", "Target")]
    2 ≤ (d.components.map ComponentDescription.id).count "a" ∧
      ∃ issues, d.job = .error issues ∧ issues.count (.duplicateComponent "a") = 1 ∧
        .unknownComponentType "a" "bogus" ∈ issues := by
  intro d
  have h : 2 ≤ (d.components.map ComponentDescription.id).count "a" := by decide
  have htyped : d.typedIds.count "a" = 2 := by decide
  obtain ⟨issues, hjob, -, hcount, huntyped⟩ := duplicates_reported h
  rw [htyped] at hcount
  refine ⟨h, issues, hjob, hcount, huntyped ⟨"a", none, "bogus", [], [], [], none, none⟩ ?_ rfl ?_⟩
  · exact List.mem_cons_self
  · decide

/-- An id that only one component of known type has is not reported, although a component of unknown
type has it, too. -/
theorem untyped_duplicate_unreported :
    let d := bare [("a", "bogus"), ("a", "source")]
    2 ≤ (d.components.map ComponentDescription.id).count "a" ∧
      ¬ ∃ issues, d.job = .error issues ∧ .duplicateComponent "a" ∈ issues := by
  intro d
  have hjob : d.job = .error [.unknownComponentType "a" "bogus"] := by rfl
  refine ⟨by decide, ?_⟩
  rintro ⟨issues, hissues, hmem⟩
  rw [hjob] at hissues
  obtain rfl := Except.error.inj hissues
  cases List.mem_singleton.1 hmem

end Job.Description
end Recast
