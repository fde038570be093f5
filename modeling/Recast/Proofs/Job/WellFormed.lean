import Mathlib.Data.List.Induction
import Mathlib.Data.List.Nodup
import Recast.Compile.Check
import Recast.Job.Wiring

/-!
# WellFormed — what the checks of the wiring accept

`Job.WellFormed` says without the checks which wirings are sound: ids are distinct, every kind has
the wires it needs, inputs lead to earlier components, wires have two ends, and every target is
reached from a source.  `Job.issues_eq_nil_iff` says that the checks find nothing exactly then.

Two of the checks rest on the others.  A place is looked up by the last component with an id, which
is any component with this id if ids are distinct; and one pass over the components settles what is
reached, since inputs lead to earlier components.

A job that the compiler has no fault to find with is `Job.Accepted`: an id stands for one component
wherever it is looked up; sources read nothing; functions and targets read one component at most; and
functions and collectors are known.
-/

namespace Recast
namespace Job

/-! ## Well-formed wirings -/

/-- What sources reach: the sources, and whatever has an input that is reached. -/
inductive Reachable (j : Job) : Component → Prop where
  | source {c : Component} (hc : c ∈ j.components) (hkind : c.kind = .source) : Reachable j c
  | input {c d : Component} (hc : c ∈ j.components) (hinput : d.id ∈ c.inputs)
      (hd : Reachable j d) : Reachable j c

structure WellFormed (j : Job) : Prop where
  distinct : (j.components.map Component.id).Nodup
  sources : ∀ c ∈ j.components, c.kind = .source → c.inputs = []
  targets : ∀ c ∈ j.components, c.kind = .target → c.outputs = []
  wired : ∀ c ∈ j.components, c.kind = .function ∨ c.kind = .collector →
    c.inputs ≠ [] ∧ c.outputs ≠ []
  backward : ∀ before c after, j.components = before ++ c :: after →
    ∀ input ∈ c.inputs, ∃ d ∈ before, d.id = input
  answered : ∀ c ∈ j.components, ∀ output ∈ c.outputs,
    ∃ d ∈ j.components, d.id = output ∧ c.id ∈ d.inputs
  reached : ∀ t ∈ j.targets, j.Reachable t

/-! ## Places -/

section Places

variable {cs before after : List Component} {c : Component} {id : String}

/-- A component has no place just where its id does not occur. -/
theorem position?_eq_none_iff : position? id cs = none ↔ id ∉ cs.map Component.id := by
  induction cs with
  | nil => simp [position?]
  | cons d rest ih =>
      rw [position?, List.map_cons, List.mem_cons, not_or, ← ih]
      cases position? id rest with
      | some i => simp
      | none => by_cases hid : d.id = id <;> simp [hid, Ne.symm]

/-- A place that has been found is that of a component with the id. -/
theorem split_of_position? {i : Nat} (h : position? id cs = some i) :
    ∃ before c after, cs = before ++ c :: after ∧ before.length = i ∧ c.id = id := by
  induction cs generalizing i with
  | nil => cases h
  | cons d rest ih =>
      rw [position?] at h
      -- the last component of the id counts, so the rest comes first
      cases hrest : position? id rest with
      | some k =>
          rw [hrest] at h
          obtain ⟨before, c, after, rfl, rfl, hid⟩ := ih hrest
          obtain rfl := Option.some.inj h
          exact ⟨d :: before, c, after, rfl, rfl, hid⟩
      | none =>
          rw [hrest] at h
          by_cases hid : d.id = id
          · rw [if_pos hid] at h
            obtain rfl := Option.some.inj h
            exact ⟨[], d, rest, rfl, rfl, hid⟩
          · rw [if_neg hid] at h
            cases h

/-- If ids are distinct, the place of an id is that of the component with this id. -/
theorem position?_split (h : ((before ++ c :: after).map Component.id).Nodup) :
    position? c.id (before ++ c :: after) = some before.length := by
  induction before with
  | nil =>
      rw [List.nil_append, List.map_cons, List.nodup_cons] at h
      rw [List.nil_append, position?, position?_eq_none_iff.2 h.1]
      simp
  | cons d rest ih =>
      rw [List.cons_append, List.map_cons, List.nodup_cons] at h
      rw [List.cons_append, position?, ih h.2]
      simp

end Places

/-! ## Single checks -/

section Checks

variable {j : Job} {c : Component}

theorem nodup_of_duplicateIssues {seen : List String} {cs : List Component}
    (h : duplicateIssues seen cs = []) :
    (cs.map Component.id).Nodup ∧ ∀ c ∈ cs, c.id ∉ seen := by
  induction cs generalizing seen with
  | nil => simp
  | cons c rest ih =>
      rw [duplicateIssues, List.append_eq_nil_iff] at h
      obtain ⟨hfirst, hrest⟩ := h
      obtain ⟨hnodup, hfresh⟩ := ih hrest
      -- what has been seen is not met again
      have hc : c.id ∉ seen := by
        intro hmem
        rw [if_pos hmem] at hfirst
        exact absurd hfirst (by simp)
      refine ⟨?_, ?_⟩
      · rw [List.map_cons, List.nodup_cons]
        refine ⟨?_, hnodup⟩
        intro hmem
        obtain ⟨d, hd, hid⟩ := List.mem_map.1 hmem
        exact hfresh d hd (hid ▸ List.mem_cons_self)
      · intro d hd
        rcases List.mem_cons.1 hd with rfl | hd
        · exact hc
        · exact fun hmem => hfresh d hd (List.mem_cons_of_mem _ hmem)

/-- No id is reported as repeated just where all are distinct. -/
theorem duplicateIssues_eq_nil_iff {seen : List String} {cs : List Component} :
    duplicateIssues seen cs = [] ↔ (cs.map Component.id).Nodup ∧ ∀ c ∈ cs, c.id ∉ seen := by
  refine ⟨nodup_of_duplicateIssues, ?_⟩
  intro ⟨hnodup, hfresh⟩
  induction cs generalizing seen with
  | nil => rfl
  | cons c rest ih =>
      rw [List.map_cons, List.nodup_cons] at hnodup
      rw [duplicateIssues, if_neg (hfresh c List.mem_cons_self), List.nil_append]
      refine ih hnodup.2 fun d hd hmem => ?_
      rcases List.mem_cons.1 hmem with hid | hmem
      · exact hnodup.1 (hid ▸ List.mem_map_of_mem hd)
      · exact hfresh d (List.mem_cons_of_mem _ hd) hmem

/-- The wires are those that the kind of the component allows. -/
theorem kindIssues_eq_nil_iff :
    kindIssues c = [] ↔ (c.kind = .source → c.inputs = []) ∧ (c.kind = .target → c.outputs = []) ∧
      (c.kind = .function ∨ c.kind = .collector → c.inputs ≠ [] ∧ c.outputs ≠ []) := by
  unfold kindIssues
  cases c.kind <;> simp

/-- An input is sound if it is that of an earlier component. -/
theorem inputIssues_eq_nil_iff {i : Nat} {input : String} :
    j.inputIssues i c input = [] ↔ ∃ k, position? input j.components = some k ∧ k < i := by
  unfold inputIssues
  cases position? input j.components <;> simp

/-- An output is sound if the component that it names has this one as an input. -/
theorem outputIssues_eq_nil_iff {output : String} :
    j.outputIssues c output = [] ↔
      ∃ before d after, j.components = before ++ d :: after ∧
        position? output j.components = some before.length ∧ c.id ∈ d.inputs := by
  unfold outputIssues
  cases hplace : position? output j.components with
  | none => simp
  | some k =>
      -- the place found is the only one, so the component there is the reader
      obtain ⟨before, d, after, heq, rfl, -⟩ := split_of_position? hplace
      have hget : j.components[before.length]? = some d := by simp [heq]
      constructor
      · intro h
        simp only [hget] at h
        by_cases hmem : c.id ∈ d.inputs
        · exact ⟨before, d, after, heq, rfl, hmem⟩
        · simp [hmem] at h
      · rintro ⟨before', d', after', heq', hlength, hmem⟩
        rw [heq] at heq'
        obtain ⟨rfl, hcons⟩ := List.append_inj heq' (Option.some.inj hlength)
        obtain ⟨rfl, rfl⟩ := List.cons.inj hcons
        simp [hget, hmem]

/-- A component is sound if its kind, its inputs and its outputs are. -/
theorem componentIssues_eq_nil_iff {i : Nat} :
    j.componentIssues i c = [] ↔ kindIssues c = [] ∧
      (∀ input ∈ c.inputs, j.inputIssues i c input = []) ∧
        ∀ output ∈ c.outputs, j.outputIssues c output = [] := by
  simp [componentIssues]

/-- Each component is checked at its place. -/
theorem allComponentIssues_eq_nil_iff {i : Nat} {cs : List Component} :
    j.allComponentIssues i cs = [] ↔
      ∀ before c after, cs = before ++ c :: after → j.componentIssues (i + before.length) c = [] := by
  induction cs generalizing i with
  | nil => simp [allComponentIssues]
  | cons d rest ih =>
      rw [allComponentIssues, List.append_eq_nil_iff, ih]
      constructor
      · rintro ⟨hfirst, hrest⟩ before c after heq
        cases before with
        -- the component is the first one
        | nil =>
            obtain ⟨rfl, -⟩ := List.cons.inj heq
            exact hfirst
        | cons b before =>
            -- it is behind the first one, so its place is counted from there
            have hissues := hrest before c after (List.cons.inj heq).2
            rwa [Nat.add_assoc, Nat.add_comm 1] at hissues
      · intro h
        refine ⟨h [] d rest rfl, fun before c after heq => ?_⟩
        have hissues := h (d :: before) c after (by rw [heq, List.cons_append])
        rwa [List.length_cons, Nat.add_comm before.length, ← Nat.add_assoc] at hissues

end Checks

/-! ## Reachability in one pass -/

section Pass

variable {j : Job} {bs cs : List Component} {c : Component} {id : String}

/-- One more component is reached if it is a source or has an input that is reached. -/
theorem reached_concat (cs : List Component) (c : Component) :
    reached (cs ++ [c]) =
      if c.kind = .source ∨ ∃ i ∈ c.inputs, i ∈ reached cs then c.id :: reached cs
      else reached cs := by
  simp [reached, List.foldl_append]

theorem mem_reached_concat :
    id ∈ reached (cs ++ [c]) ↔
      id ∈ reached cs ∨ id = c.id ∧ (c.kind = .source ∨ ∃ i ∈ c.inputs, i ∈ reached cs) := by
  rw [reached_concat]
  split
  case isTrue h => simp [h, or_comm]
  case isFalse h => simp [h]

/-- What has been reached stays reached. -/
theorem mem_reached_append_left (h : id ∈ reached bs) : id ∈ reached (bs ++ cs) := by
  induction cs using List.reverseRecOn with
  | nil => simpa using h
  | append_singleton cs c ih =>
      rw [← List.append_assoc, mem_reached_concat]
      exact .inl ih

/-- What is reached later on is the id of a later component. -/
theorem mem_reached_of_append (h : id ∈ reached (bs ++ cs)) (hlater : id ∉ cs.map Component.id) :
    id ∈ reached bs := by
  induction cs using List.reverseRecOn with
  | nil => simpa using h
  | append_singleton cs c ih =>
      rw [List.map_append, List.mem_append, not_or] at hlater
      rw [← List.append_assoc, mem_reached_concat] at h
      rcases h with h | ⟨hid, -⟩
      · exact ih h hlater.1
      · exact absurd (List.mem_singleton.2 hid) hlater.2

/-- The pass finds nothing that is not reachable. -/
theorem reachable_of_mem_reached (hcs : cs ⊆ j.components) (h : id ∈ reached cs) :
    ∃ c ∈ cs, c.id = id ∧ j.Reachable c := by
  induction cs using List.reverseRecOn generalizing id with
  | nil => cases h
  | append_singleton cs c ih =>
      have hbefore : cs ⊆ j.components := fun d hd => hcs (List.mem_append_left _ hd)
      have hc : c ∈ cs ++ [c] := by simp
      rcases mem_reached_concat.1 h with h | ⟨rfl, hkind | ⟨i, hi, hmem⟩⟩
      · obtain ⟨d, hd, hid, hreach⟩ := ih hbefore h
        exact ⟨d, List.mem_append_left _ hd, hid, hreach⟩
      · exact ⟨c, hc, rfl, .source (hcs hc) hkind⟩
      · obtain ⟨d, -, rfl, hreach⟩ := ih hbefore hmem
        exact ⟨c, hc, rfl, .input (hcs hc) hi hreach⟩

/-- The pass finds whatever is reachable, if inputs lead backwards. -/
theorem mem_reached_of_reachable (hids : (j.components.map Component.id).Nodup)
    (hback : ∀ before c after, j.components = before ++ c :: after →
      ∀ input ∈ c.inputs, ∃ d ∈ before, d.id = input)
    (h : j.Reachable c) : c.id ∈ reached j.components := by
  induction h with
  | @source c hc hkind =>
      obtain ⟨before, after, heq⟩ := List.append_of_mem hc
      rw [heq, List.append_cons]
      exact mem_reached_append_left (mem_reached_concat.2 (.inr ⟨rfl, .inl hkind⟩))
  | @input c d hc hinput _ ih =>
      obtain ⟨before, after, heq⟩ := List.append_of_mem hc
      -- the input stands before `c`, so it has been reached when the pass comes to `c`
      obtain ⟨b, hb, hid⟩ := hback before c after heq d.id hinput
      have hlater : d.id ∉ (c :: after).map Component.id := by
        intro hmem
        rw [heq, List.map_append, List.nodup_append] at hids
        exact hids.2.2 _ (List.mem_map_of_mem hb) _ hmem hid
      rw [heq] at ih
      have hbefore := mem_reached_of_append ih hlater
      rw [heq, List.append_cons]
      exact mem_reached_append_left
        (mem_reached_concat.2 (.inr ⟨rfl, .inr ⟨d.id, hinput, hbefore⟩⟩))

/-- All targets with declared inputs are reached. -/
theorem reachIssues_eq_nil_iff :
    j.reachIssues = [] ↔
      ∀ t ∈ j.targets, (∀ i ∈ t.inputs, (position? i j.components).isSome) →
        t.id ∈ reached j.components := by
  simp [reachIssues, List.filter_eq_nil_iff]

end Pass

/-! ## All checks -/

variable {j : Job}

/-- An input without issues is the id of a component in front. -/
theorem exists_before_of_inputIssues {before after : List Component} {c : Component} {input : String}
    (heq : j.components = before ++ c :: after) (h : j.inputIssues before.length c input = []) :
    ∃ d ∈ before, d.id = input := by
  obtain ⟨k, hplace, hlt⟩ := inputIssues_eq_nil_iff.1 h
  obtain ⟨front, d, rest, heq', rfl, hid⟩ := split_of_position? hplace
  -- the place is within the components before `c`
  rw [heq] at heq'
  refine ⟨d, ?_, hid⟩
  have hget : (before ++ c :: after)[front.length]? = some d := by simp [heq']
  rw [List.getElem?_append_left hlt] at hget
  exact List.mem_of_getElem? hget

/-- An output without issues is the id of a component that reads. -/
theorem exists_of_outputIssues {c : Component} {output : String}
    (h : j.outputIssues c output = []) : ∃ d ∈ j.components, d.id = output ∧ c.id ∈ d.inputs := by
  obtain ⟨front, d, rest, heq, hplace, hreads⟩ := outputIssues_eq_nil_iff.1 h
  obtain ⟨front', d', rest', heq', hlength, hid⟩ := split_of_position? hplace
  obtain ⟨rfl, hcons⟩ := List.append_inj (heq.symm.trans heq') hlength.symm
  obtain ⟨rfl, -⟩ := List.cons.inj hcons
  exact ⟨d, by simp [heq], hid, hreads⟩

/-- A target without issues whose inputs are found is reachable. -/
theorem reachable_of_reachIssues (hids : (j.components.map Component.id).Nodup)
    (h : j.reachIssues = []) {t : Component} (ht : t ∈ j.targets)
    (hfound : ∀ i ∈ t.inputs, (position? i j.components).isSome) : j.Reachable t := by
  have hreached := reachIssues_eq_nil_iff.1 h t ht hfound
  obtain ⟨c, hc, hid, hreachable⟩ := reachable_of_mem_reached (List.Subset.refl _) hreached
  obtain rfl : c = t := List.inj_on_of_nodup_map hids hc (List.mem_filter.1 ht).1 hid
  exact hreachable

/-- A job without faults is well formed. -/
theorem wellFormed_of_issues (h : j.issues = []) : j.WellFormed := by
  rw [issues, List.append_eq_nil_iff, List.append_eq_nil_iff] at h
  obtain ⟨⟨hids, hcomponents⟩, hreach⟩ := h
  have hnodup := (duplicateIssues_eq_nil_iff.1 hids).1
  -- every component is checked at its own place
  have hchecked : ∀ before c after, j.components = before ++ c :: after →
      kindIssues c = [] ∧ (∀ input ∈ c.inputs, j.inputIssues before.length c input = []) ∧
        ∀ output ∈ c.outputs, j.outputIssues c output = [] := by
    intro before c after heq
    have hissues := allComponentIssues_eq_nil_iff.1 hcomponents before c after heq
    rw [Nat.zero_add] at hissues
    exact componentIssues_eq_nil_iff.1 hissues
  have hmem : ∀ c ∈ j.components, ∃ before after, j.components = before ++ c :: after :=
    fun c hc => List.append_of_mem hc
  have hkinds : ∀ c ∈ j.components, kindIssues c = [] := by
    intro c hc
    obtain ⟨before, after, heq⟩ := hmem c hc
    exact (hchecked before c after heq).1
  refine ⟨hnodup, ?sources, ?targets, ?wired, ?backward, ?answered, ?reached⟩
  case sources =>
    intro c hc
    exact (kindIssues_eq_nil_iff.1 (hkinds c hc)).1
  case targets =>
    intro c hc
    exact (kindIssues_eq_nil_iff.1 (hkinds c hc)).2.1
  case wired =>
    intro c hc
    exact (kindIssues_eq_nil_iff.1 (hkinds c hc)).2.2
  case backward =>
    intro before c after heq input hinput
    obtain ⟨-, hinputs, -⟩ := hchecked before c after heq
    exact exists_before_of_inputIssues heq (hinputs input hinput)
  case answered =>
    intro c hc output houtput
    obtain ⟨before, after, heq⟩ := hmem c hc
    obtain ⟨-, -, houtputs⟩ := hchecked before c after heq
    exact exists_of_outputIssues (houtputs output houtput)
  case reached =>
    intro t ht
    refine reachable_of_reachIssues hnodup hreach ht ?_
    intro i hi
    obtain ⟨before, after, heq⟩ := hmem t (List.mem_filter.1 ht).1
    obtain ⟨-, hinputs, -⟩ := hchecked before t after heq
    obtain ⟨k, hplace, -⟩ := inputIssues_eq_nil_iff.1 (hinputs i hi)
    simp [hplace]

/-- A well-formed job has no faults. -/
theorem issues_of_wellFormed (h : j.WellFormed) : j.issues = [] := by
  -- by the distinct ids a component is found at its own place
  have hplace : ∀ before c after, j.components = before ++ c :: after →
      position? c.id j.components = some before.length := by
    intro before c after heq
    have hnodup := h.distinct
    rw [heq] at hnodup ⊢
    exact position?_split hnodup
  have hcomponents : j.allComponentIssues 0 j.components = [] := by
    rw [allComponentIssues_eq_nil_iff]
    intro before c after heq
    have hc : c ∈ j.components := by simp [heq]
    rw [Nat.zero_add, componentIssues_eq_nil_iff]
    refine ⟨?_, ?_, ?_⟩
    · exact kindIssues_eq_nil_iff.2 ⟨h.sources c hc, h.targets c hc, h.wired c hc⟩
    · intro input hinput
      obtain ⟨d, hd, rfl⟩ := h.backward before c after heq input hinput
      obtain ⟨front, rest, rfl⟩ := List.append_of_mem hd
      have hat := hplace front d (rest ++ c :: after) (by simp [heq])
      exact inputIssues_eq_nil_iff.2 ⟨front.length, hat, by simp⟩
    · intro output houtput
      obtain ⟨d, hd, rfl, hreads⟩ := h.answered c hc output houtput
      obtain ⟨front, rest, heq'⟩ := List.append_of_mem hd
      exact outputIssues_eq_nil_iff.2 ⟨front, d, rest, heq', hplace front d rest heq', hreads⟩
  have hids : duplicateIssues [] j.components = [] :=
    duplicateIssues_eq_nil_iff.2 ⟨h.distinct, by simp⟩
  have hreach : j.reachIssues = [] := by
    rw [reachIssues_eq_nil_iff]
    intro t ht _
    exact mem_reached_of_reachable h.distinct h.backward (h.reached t ht)
  rw [issues, hids, hcomponents, hreach]
  rfl

/-- The checks of the wiring find nothing if and only if it is well formed. -/
theorem issues_eq_nil_iff : j.issues = [] ↔ j.WellFormed :=
  ⟨wellFormed_of_issues, issues_of_wellFormed⟩

/-! ## Ids -/

/-- Where ids are distinct, a component is found under its own. -/
theorem component?_of_mem {j : Job} (h : (j.components.map Component.id).Nodup) {c : Component}
    (hc : c ∈ j.components) : j.component? c.id = some c := by
  unfold component?
  generalize j.components = cs at h hc
  induction cs with
  | nil => exact absurd hc (by simp)
  | cons d rest ih =>
      rw [List.map_cons, List.nodup_cons] at h
      rcases List.mem_cons.1 hc with rfl | hc
      · simp
      · -- the component is behind the first one, whose id is another one
        have hne : d.id ≠ c.id := by
          intro e
          exact h.1 (e ▸ List.mem_map_of_mem hc)
        rw [List.find?_cons_of_neg (by simpa using hne)]
        exact ih h.2 hc

theorem mem_of_component? {j : Job} {id : String} {c : Component}
    (h : j.component? id = some c) : c ∈ j.components :=
  List.mem_of_find?_eq_some h

theorem id_of_component? {j : Job} {id : String} {c : Component}
    (h : j.component? id = some c) : c.id = id := by
  simpa using List.find?_some h

/-! ## Accepted jobs -/

/-- The wires of a job as its checks leave them. -/
structure Accepted (j : Job) : Prop where
  nodup_ids : (j.components.map Component.id).Nodup
  source_inputs : ∀ c ∈ j.components, c.kind = .source → c.inputs = []
  function_inputs : ∀ c ∈ j.components, c.kind = .function → c.inputs.length ≤ 1
  target_inputs : ∀ c ∈ j.components, c.kind = .target → c.inputs.length ≤ 1
  known_function : ∀ c ∈ j.components, c.kind = .function →
    (Signature.function? c.function).isSome
  known_collector : ∀ c ∈ j.components, c.kind = .collector →
    (Signature.collector? c.function).isSome

theorem inputs_length_le {c : Component} (h : c.inputIssues = []) : c.inputs.length ≤ 1 := by
  unfold Component.inputIssues at h
  by_cases hlt : 1 < c.inputs.length
  · rw [if_pos hlt] at h
    exact absurd h (by simp)
  · omega

theorem isSome_of_signatureIssues {c : Component} {s : Option Signature}
    (h : c.signatureIssues s = []) : s.isSome := by
  cases s with
  | none => cases h
  | some s => rfl

theorem wellFormed_of_compileIssues {j : Job} (h : j.compileIssues = []) : j.WellFormed := by
  rw [compileIssues, List.append_eq_nil_iff, List.map_eq_nil_iff] at h
  exact wellFormed_of_issues h.1

/-- A job without faults has components without faults. -/
theorem compileIssues_of_mem {j : Job} (h : j.compileIssues = []) {c : Component}
    (hc : c ∈ j.components) : c.compileIssues = [] := by
  rw [compileIssues, List.append_eq_nil_iff] at h
  exact List.flatMap_eq_nil_iff.1 h.2 c hc

/-- A job without faults has its wires accepted. -/
theorem accepted_of_compileIssues {j : Job} (h : j.compileIssues = []) : j.Accepted := by
  have hwell := wellFormed_of_compileIssues h
  -- each kind has its own checks
  refine ⟨hwell.distinct, hwell.sources, ?_, ?_, ?_, ?_⟩
  · intro c hc hkind
    have hissues := compileIssues_of_mem h hc
    simp only [Component.compileIssues, hkind, List.append_eq_nil_iff] at hissues
    exact inputs_length_le hissues.1
  · intro c hc hkind
    have hissues := compileIssues_of_mem h hc
    simp only [Component.compileIssues, hkind] at hissues
    exact inputs_length_le hissues
  · intro c hc hkind
    have hissues := compileIssues_of_mem h hc
    simp only [Component.compileIssues, hkind, List.append_eq_nil_iff] at hissues
    exact isSome_of_signatureIssues hissues.2
  · intro c hc hkind
    have hissues := compileIssues_of_mem h hc
    simp only [Component.compileIssues, hkind] at hissues
    exact isSome_of_signatureIssues hissues

end Job
end Recast
