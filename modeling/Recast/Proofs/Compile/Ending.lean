import Recast.Proofs.Compile.Shape
import Recast.Proofs.Job.WellFormed

/-!
# Ending — compilations come to an end

Nothing in the rules of a job says how far its inputs lead.  `Draft.seek` follows them through the
whole job, wherever they lead, and gives up after some steps: in a job whose inputs lead in a circle
no number of steps is enough.  The checks of the wiring refuse such jobs, so a compilation that
follows inputs blindly ends for every job, within as many steps as there are components, and agrees
with `Job.compile`; and the only fault that is left is a target that another one reads.
-/

namespace Recast

/-! ## Following inputs blindly -/

def ended {ε α : Type} (x : Except ε α) : ExceptT ε Option α :=
  ExceptT.mk (some x)

namespace Draft

/-- The rule that reads a component of the job, found by following inputs through at most so many
components. -/
def seek (j : Job) : Nat → String → Draft → ExceptT ScriptFault Option (Script.DataRule × Draft)
  | 0, _, _ => ExceptT.mk none
  | steps + 1, id, d =>
      match j.component? id with
      | none => ended (.error (.vanished id))
      | some c =>
          match c.kind with
          | .source => ended (.ok (sourceRule c d))
          | .target => ended (.error (.targetFeeds c.id))
          | .function =>
              match c.inputs with
              | [] => ended (.error (.noInput .function c.id))
              | input :: _ => do
                  let (rule, d) ← seek j steps input d
                  let (call, d) := callOf c d
                  return ({ rule with functions := rule.functions ++ [call] }, d)
          | .collector =>
              let rule : Script.DataRule := ⟨variable_ c.id, none, none, []⟩
              if c.id ∈ d.collected then return (rule, d)
              else do
                let (inputs, d) ← c.inputs.foldlM (fun (x : List Script.DataRule × Draft) input => do
                  let (r, d) ← seek j steps input x.2
                  return (x.1 ++ [{ r with name := some input }], d)) ([], d)
                return (rule, closeCollector c inputs d)

def seekTarget (j : Job) (steps : Nat) (d : Draft) (target : Component) :
    ExceptT ScriptFault Option Draft :=
  match target.inputs with
  | [] => ended (.error (.noInput .target target.id))
  | input :: _ => do
      let (rule, d) ← seek j steps input d
      return { d with rules := d.rules ++ [.data { rule with name := some target.path }] }

end Draft

namespace Job

def seekDraft (j : Job) (steps : Nat) : ExceptT ScriptFault Option Script := do
  let d ← j.targets.foldlM (Draft.seekTarget j steps) .empty
  return ⟨j.name, j.vars, d.rules, d.maps, d.filters⟩

/-- The script of a job, if so many steps are enough to see whether there is one. -/
def compileWithin (j : Job) (steps : Nat) : Option (Except CompileError Script) :=
  match j.compileIssues with
  | [] => (j.seekDraft steps).run.map fun drafted => do
      let s ← drafted.mapError .ofFault
      let _ ← Morph.ofScript s
      return s
  | issues => some (.error ⟨issues⟩)

end Job

/-! ## Components that read what stands behind them -/

namespace Job

/-- Components of a job, the last one first: the inputs of each lead to those behind it, and a
function has an input. -/
def Descends (j : Job) : List Component → Prop
  | [] => True
  | c :: earlier => j.component? c.id = some c ∧ (∀ input ∈ c.inputs, input ∈ earlier.map Component.id) ∧
      (c.kind = .function → c.inputs ≠ []) ∧ j.Descends earlier

variable {j : Job}

/-- Components in front of others are the last ones of a job, seen from there. -/
theorem descends_reverse (h : j.WellFormed) {before after : List Component}
    (heq : j.components = before ++ after) : j.Descends before.reverse := by
  induction before using List.reverseRecOn generalizing after with
  | nil => trivial
  | append_singleton before c ih =>
      -- the component stands behind those it reads
      have hsplit : j.components = before ++ c :: after := by
        rw [heq, List.append_assoc, List.singleton_append]
      have hc : c ∈ j.components := by simp [hsplit]
      rw [List.reverse_concat]
      refine ⟨component?_of_mem h.distinct hc, ?_, ?_, ih hsplit⟩
      · intro input hinput
        obtain ⟨d, hd, hid⟩ := h.backward before c after hsplit input hinput
        exact List.mem_map.2 ⟨d, List.mem_reverse.2 hd, hid⟩
      · intro hkind
        exact (h.wired c hc (.inl hkind)).1

/-- Seen from the end, every component of a sound job reads those behind it. -/
theorem descends_components (h : j.WellFormed) : j.Descends j.components.reverse :=
  descends_reverse h (List.append_nil _).symm

/-- The inputs of a component are ids of the job. -/
theorem mem_ids_of_input (h : j.WellFormed) {c : Component} (hc : c ∈ j.components) {input : String}
    (hinput : input ∈ c.inputs) : input ∈ j.components.reverse.map Component.id := by
  obtain ⟨before, after, heq⟩ := List.append_of_mem hc
  obtain ⟨d, hd, rfl⟩ := h.backward before c after heq input hinput
  refine List.mem_map_of_mem (List.mem_reverse.2 ?_)
  rw [heq]
  exact List.mem_append_left _ hd

/-- Whatever a component reads, through others or not, stands before it. -/
theorem mem_before_of_readsThrough (h : j.WellFormed) {c d : Component} (hread : j.ReadsThrough c d)
    {before after : List Component} (heq : j.components = before ++ c :: after) : d ∈ before := by
  -- a component reads only what is in front of it
  have hstep : ∀ {c d before after}, j.components = before ++ c :: after → j.Reads c d →
      d ∈ before := by
    rintro c d before after heq ⟨input, hinput, hd⟩
    obtain ⟨b, hb, hid⟩ := h.backward before c after heq input hinput
    have hfound := component?_of_mem h.distinct (c := b) (by simp [heq, hb])
    rw [hid, hd] at hfound
    exact Option.some.inj hfound ▸ hb
  induction hread with
  | single hread => exact hstep heq hread
  | @tail b d _ hread ih =>
      obtain ⟨front, rest, rfl⟩ := List.append_of_mem ih
      have hsplit : j.components = front ++ b :: (rest ++ c :: after) := by simp [heq]
      exact List.mem_append_left _ (hstep hsplit hread)

/-- No component of a sound job reads itself, not even through others. -/
theorem ne_of_readsThrough (h : j.WellFormed) {c d : Component} (hc : c ∈ j.components)
    (hread : j.ReadsThrough c d) : d ≠ c := by
  rintro rfl
  obtain ⟨before, after, heq⟩ := List.append_of_mem hc
  have hbefore := mem_before_of_readsThrough h hread heq
  have hnodup := h.distinct
  rw [heq, List.map_append, List.nodup_append] at hnodup
  exact hnodup.2.2 _ (List.mem_map_of_mem hbefore) _ (by simp) rfl

end Job

/-! ## The search ends -/

section Ended

variable {ε α β : Type}

/-- Computations that end may follow each other. -/
theorem ended_bind (x : Except ε α) (f : α → Except ε β) :
    ended (x >>= f) = (ended x >>= fun a => ended (f a) : ExceptT ε Option β) := by
  cases x <;> rfl

/-- Steps that come to an end one by one do so one after the other. -/
theorem foldlM_ended {f : β → α → ExceptT ε Option β} {g : β → α → Except ε β} {as : List α}
    (h : ∀ a ∈ as, ∀ b, f b a = ended (g b a)) (b : β) :
    as.foldlM f b = ended (as.foldlM g b) := by
  induction as generalizing b with
  | nil => rfl
  | cons a rest ih =>
      rw [List.foldlM_cons, List.foldlM_cons, ended_bind, h a List.mem_cons_self b]
      have hrest : ∀ b, rest.foldlM f b = ended (rest.foldlM g b) :=
        ih fun a ha => h a (List.mem_cons_of_mem _ ha)
      rw [funext hrest]

end Ended

namespace Draft

variable {j : Job}

/-- Blindly followed inputs lead through components that stand behind each other, so the search ends
with the rule that is found among these. -/
theorem seek_eq {cs : List Component} (hcs : j.Descends cs) {id : String}
    (hid : id ∈ cs.map Component.id) {steps : Nat} (hsteps : cs.length ≤ steps) (d : Draft) :
    seek j steps id d = ended (ruleFrom cs id d) := by
  induction cs generalizing steps id d with
  | nil => cases hid
  | cons c earlier ih =>
      obtain ⟨hc, hinputs, -, hearlier⟩ := hcs
      rw [List.length_cons] at hsteps
      by_cases hcid : c.id = id
      case neg =>
        have hmem : id ∈ earlier.map Component.id := by
          rcases List.mem_cons.1 hid with rfl | hmem
          · exact absurd rfl hcid
          · exact hmem
        rw [ruleFrom_other hcid]
        exact ih hearlier hmem (by omega) d
      case pos =>
        subst hcid
        obtain ⟨steps, rfl⟩ : ∃ n, steps = n + 1 := ⟨steps - 1, by omega⟩
        -- what `c` reads stands behind it, and there is one component less to go through
        have hread : ∀ input ∈ c.inputs, ∀ d, seek j steps input d = ended (ruleFrom earlier input d) :=
          fun input hinput d => ih hearlier (hinputs input hinput) (by omega) d
        rw [seek]
        cases hkind : c.kind with
        | source => simp only [hc, hkind, ruleFrom_source hkind]
        | target => simp only [hc, hkind, ruleFrom_target hkind]
        | function =>
            cases hlist : c.inputs with
            | nil => simp only [hc, hkind, hlist, ruleFrom_unwired hkind hlist]
            | cons input rest =>
                simp only [hc, hkind, hlist, ruleFrom_function hkind hlist,
                  hread input (by simp [hlist]), ended_bind]
                rfl
        | collector =>
            by_cases hcollected : c.id ∈ d.collected
            · simp only [hc, hkind, if_pos hcollected, ruleFrom_collected hkind hcollected]
              rfl
            · have hfold : c.inputs.foldlM (fun (x : List Script.DataRule × Draft) input => do
                  let (r, d) ← seek j steps input x.2
                  return (x.1 ++ [{ r with name := some input }], d)) ([], d) =
                  ended (c.inputs.foldlM (readInput earlier) ([], d)) := by
                refine foldlM_ended (fun input hinput x => ?_) ([], d)
                simp only [hread input hinput, readInput, ended_bind]
                rfl
              simp only [hc, hkind, if_neg hcollected, ruleFrom_collector hkind hcollected, hfold,
                ended_bind]
              rfl

/-- With as many steps as there are components, the search for a target ends as the draft does. -/
theorem seekTarget_eq (h : j.WellFormed) {t : Component} (ht : t ∈ j.targets) {steps : Nat}
    (hsteps : j.components.length ≤ steps) (d : Draft) :
    seekTarget j steps d t = ended (addTarget j.components d t) := by
  unfold seekTarget addTarget
  cases hinputs : t.inputs with
  | nil => rfl
  | cons input rest =>
      have hmem : input ∈ j.components.reverse.map Component.id :=
        Job.mem_ids_of_input h (List.mem_filter.1 ht).1 (by simp [hinputs])
      have hseek := seek_eq (Job.descends_components h) hmem (by simpa using hsteps) d
      simp only [hseek, ended_bind]
      rfl

end Draft

namespace Job

variable {j : Job}

/-- With as many steps as there are components, the search ends as the draft does. -/
theorem seekDraft_eq (h : j.WellFormed) {steps : Nat} (hsteps : j.components.length ≤ steps) :
    j.seekDraft steps = ended j.draft := by
  rw [seekDraft, draft, ended_bind,
    foldlM_ended (fun t ht d => Draft.seekTarget_eq h ht hsteps d) Draft.empty]
  rfl

/-- A compilation that follows inputs blindly ends, within as many steps as there are components. -/
theorem compileWithin_eq (j : Job) {steps : Nat} (hsteps : j.components.length ≤ steps) :
    j.compileWithin steps = some j.compile := by
  unfold compileWithin compile
  cases hissues : j.compileIssues with
  | cons issue rest => rfl
  | nil =>
      rw [seekDraft_eq (wellFormed_of_compileIssues hissues) hsteps]
      rfl

end Job

/-! ## Faults -/

namespace Draft

variable {j : Job}

/-- The fault that following inputs leads to is a target among what has been read. -/
theorem ruleFrom_error {cs : List Component} (hcs : j.Descends cs) {id : String}
    (hid : id ∈ cs.map Component.id) {d : Draft} {fault : ScriptFault}
    (h : ruleFrom cs id d = .error fault) :
    ∃ b u, j.component? id = some b ∧ Relation.ReflTransGen j.Reads b u ∧ u.kind = .target ∧
      j.component? u.id = some u ∧ fault = .targetFeeds u.id := by
  induction cs generalizing id d with
  | nil => cases hid
  | cons c earlier ih =>
      obtain ⟨hc, hinputs, hwired, hearlier⟩ := hcs
      by_cases hcid : c.id = id
      case neg =>
        rw [ruleFrom_other hcid] at h
        rcases List.mem_cons.1 hid with rfl | hmem
        · exact absurd rfl hcid
        · exact ih hearlier hmem h
      case pos =>
        subst hcid
        -- a fault further down is that of an input
        have hdown : ∀ {input d}, input ∈ c.inputs → ruleFrom earlier input d = .error fault →
            ∃ b u, j.component? c.id = some b ∧ Relation.ReflTransGen j.Reads b u ∧
              u.kind = .target ∧ j.component? u.id = some u ∧ fault = .targetFeeds u.id := by
          intro input d hinput herror
          obtain ⟨b, u, hb, hreads, hu⟩ := ih hearlier (hinputs input hinput) herror
          exact ⟨c, u, hc, hreads.head ⟨input, hinput, hb⟩, hu⟩
        cases hkind : c.kind with
        | source =>
            rw [ruleFrom_source hkind] at h
            cases h
        | target =>
            rw [ruleFrom_target hkind] at h
            exact ⟨c, c, hc, .refl, hkind, hc, (Except.error.inj h).symm⟩
        | function =>
            cases hlist : c.inputs with
            | nil => exact absurd hlist (hwired hkind)
            | cons input rest =>
                rw [ruleFrom_function hkind hlist] at h
                cases hfirst : ruleFrom earlier input d with
                | error e =>
                    rw [hfirst] at h
                    obtain rfl := Except.error.inj h
                    exact hdown (by simp [hlist]) hfirst
                | ok x =>
                    rw [hfirst] at h
                    cases h
        | collector =>
            by_cases hcollected : c.id ∈ d.collected
            case pos =>
              rw [ruleFrom_collected hkind hcollected] at h
              cases h
            case neg =>
              rw [ruleFrom_collector hkind hcollected] at h
              cases hfold : c.inputs.foldlM (readInput earlier) ([], d) with
              | ok x =>
                  rw [hfold] at h
                  cases h
              | error e =>
                  rw [hfold] at h
                  obtain rfl := Except.error.inj h
                  obtain ⟨input, hinput, x, hx⟩ := exists_of_foldlM_error hfold
                  refine hdown hinput (d := x.2) ?_
                  unfold readInput at hx
                  cases hrule : ruleFrom earlier input x.2 with
                  | error e' =>
                      rw [hrule] at hx
                      exact congrArg _ (Except.error.inj hx)
                  | ok y =>
                      rw [hrule] at hx
                      cases hx

end Draft

namespace Job

variable {j : Job}

/-- A target that is reached has an input. -/
theorem inputs_ne_nil_of_target (h : j.WellFormed) {t : Component} (ht : t ∈ j.targets) :
    t.inputs ≠ [] := by
  have hkind : t.kind = .target := by simpa using (List.mem_filter.1 ht).2
  cases h.reached t ht with
  | source _ hsource =>
      rw [hkind] at hsource
      cases hsource
  | input _ hinput _ => exact List.ne_nil_of_mem hinput

/-- The fault of a job whose components can be compiled is a target that another one reads. -/
theorem draft_error (h : j.WellFormed) {fault : ScriptFault} (hdraft : j.draft = .error fault) :
    ∃ t ∈ j.targets, ∃ u ∈ j.targets, u ≠ t ∧ j.ReadsThrough t u ∧ fault = .targetFeeds u.id := by
  -- only the steps for the targets can fail
  have hfold : j.targets.foldlM (Draft.addTarget j.components) .empty = .error fault := by
    unfold draft at hdraft
    cases hfold : j.targets.foldlM (Draft.addTarget j.components) .empty with
    | error e =>
        rw [hfold] at hdraft
        exact congrArg _ (Except.error.inj hdraft)
    | ok d =>
        rw [hfold] at hdraft
        cases hdraft
  obtain ⟨t, ht, d, herror⟩ := exists_of_foldlM_error hfold
  have htmem : t ∈ j.components := (List.mem_filter.1 ht).1
  unfold Draft.addTarget at herror
  cases hinputs : t.inputs with
  | nil => exact absurd hinputs (inputs_ne_nil_of_target h ht)
  | cons input rest =>
      rw [hinputs] at herror
      have hinput : input ∈ t.inputs := by simp [hinputs]
      cases hrule : Draft.ruleFrom j.components.reverse input d with
      | ok x =>
          simp only [hrule] at herror
          cases herror
      | error e =>
          simp only [hrule] at herror
          obtain rfl := Except.error.inj herror
          -- the chain ends at a target, which this target reads in this way
          obtain ⟨b, u, hb, hreads, hkind, hu, rfl⟩ :=
            Draft.ruleFrom_error (descends_components h) (mem_ids_of_input h htmem hinput) hrule
          have hfirst : j.Reads t b := ⟨input, hinput, hb⟩
          have hthrough : j.ReadsThrough t u := Relation.TransGen.head' hfirst hreads
          refine ⟨t, ht, u, List.mem_filter.2 ⟨mem_of_component? hu, by simpa using hkind⟩, ?_,
            hthrough, rfl⟩
          exact ne_of_readsThrough h htmem hthrough

/-- No target of a job with a draft reads another one. -/
theorem not_readsThrough_of_draft (hj : j.Accepted) {s : Script} (hs : j.draft = .ok s)
    {t u : Component} (ht : t ∈ j.targets) (hu : u ∈ j.targets) : ¬ j.ReadsThrough t u := by
  intro hread
  obtain ⟨ps, seen, d, hd, -, htargets, -⟩ := draft_holds hj hs
  have htps : t ∈ ps := by
    rw [← htargets] at ht
    exact (List.mem_filter.1 ht).1
  have hkind : u.kind = .target := by simpa using (List.mem_filter.1 hu).2
  -- what is read ends a chain, and no target stands in a chain
  obtain ⟨hfound, start, through, hchain, -⟩ := chain_of_readsThrough hj hd htps hread
  cases hchain with
  | start hstart hstartKind =>
      obtain rfl := Option.some.inj (hfound.symm.trans hstart)
      simp [hkind] at hstartKind
  | through hf hfkind _ _ =>
      obtain rfl := Option.some.inj (hfound.symm.trans hf)
      rw [hkind] at hfkind
      cases hfkind

/-- Compilation comes to an end for every job, though it follows inputs wherever they lead.  If the
checks find nothing, all components and inputs that it asks for are there, and it fails just in case
that a target reads, through any number of components, another target. -/
theorem compile_ends (j : Job) :
    (∀ steps, j.components.length ≤ steps → j.compileWithin steps = some j.compile) ∧
      (j.compileIssues = [] →
        (∀ id, j.draft ≠ .error (.vanished id)) ∧
        (∀ kind id, j.draft ≠ .error (.noInput kind id)) ∧
        ((∃ id, j.draft = .error (.targetFeeds id)) ↔
          ∃ t ∈ j.targets, ∃ u ∈ j.targets, u ≠ t ∧ j.ReadsThrough t u)) := by
  refine ⟨fun steps hsteps => j.compileWithin_eq hsteps, ?_⟩
  intro hissues
  have hj := accepted_of_compileIssues hissues
  have hwell := wellFormed_of_compileIssues hissues
  -- the only fault of a draft is a target that feeds another
  refine ⟨?_, ?_, ?_, ?_⟩
  · intro id herror
    obtain ⟨_, _, _, _, _, _, hfault⟩ := draft_error hwell herror
    cases hfault
  · intro kind id herror
    obtain ⟨_, _, _, _, _, _, hfault⟩ := draft_error hwell herror
    cases hfault
  · rintro ⟨id, herror⟩
    obtain ⟨t, ht, u, hu, hne, hread, -⟩ := draft_error hwell herror
    exact ⟨t, ht, u, hu, hne, hread⟩
  · rintro ⟨t, ht, u, hu, -, hread⟩
    cases hdraft : j.draft with
    | ok s => exact absurd hread (not_readsThrough_of_draft hj hdraft ht hu)
    | error fault =>
        obtain ⟨_, _, v, _, _, _, rfl⟩ := draft_error hwell hdraft
        exact ⟨v.id, rfl⟩

/-- A target that reads another target. -/
def crossed : Job :=
  ⟨"j", "catalogue",
    [⟨"S", "title", .source, ⟨"title", .empty⟩, [], ["T"], none⟩,
     ⟨"T", "name", .target, ⟨"name", .empty⟩, ["S"], [], none⟩,
     ⟨"F", "trim", .function, ⟨"trim", .empty⟩, ["T"], ["U"], none⟩,
     ⟨"U", "label", .target, ⟨"label", .empty⟩, ["F"], [], none⟩], .empty⟩

/-- A job in which a target reads another one compiles to a fault, in as many steps as it has
components. -/
theorem compile_ends_crossed : crossed.compileIssues = [] ∧
    crossed.compileWithin 4 = some crossed.compile ∧
    ∃ t ∈ crossed.targets, ∃ u ∈ crossed.targets, u ≠ t ∧ crossed.ReadsThrough t u := by
  have hissues : crossed.compileIssues = [] := by decide +kernel
  have hfault : crossed.draft = .error (.targetFeeds "T") := by decide +kernel
  exact ⟨hissues, (compile_ends crossed).1 4 (by decide),
    ((compile_ends crossed).2 hissues).2.2.1 ⟨"T", hfault⟩⟩

/-- A function that reads itself. -/
def circle : Job :=
  ⟨"j", "catalogue", [⟨"F", "trim", .function, ⟨"trim", .empty⟩, ["F"], ["F"], none⟩], .empty⟩

/-- The search for its rule gives up, whatever number of steps it has. -/
theorem seek_circle (steps : Nat) (d : Draft) : Draft.seek circle steps "F" d = ExceptT.mk none := by
  induction steps with
  | zero => rfl
  | succ steps ih =>
      have hstep : Draft.seek circle (steps + 1) "F" d = (do
          let x ← Draft.seek circle steps "F" d
          return ({ x.1 with functions := x.1.functions ++ [(⟨"trim", .empty⟩ : Script.Call)] }, x.2)) := rfl
      rw [hstep, ih]
      rfl

end Job
end Recast
