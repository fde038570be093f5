import Mathlib.Data.List.Basic
import Recast.Proofs.Morph.Layer
import Recast.Proofs.Morph.Route

/-!
# Intake — what enters a pipe

A value enters a pipe when it goes out under a name that the source of the pipe accepts: as a literal
of the record, or from a collector.  In a layered program nothing comes in between: a pipe whose
source accepts the name of one collector and no path of a literal takes in what this collector emits,
and a pipe whose source accepts no name of a collector takes in the literals that it accepts.

* `Morph.AsFar` — as far as steps go before one of them is refused;
* `Morph.Enters` — what enters the pipe at a place during some steps;
* `Morph.Layered.intake` — what enters it in a record.
-/

namespace Recast

namespace Morph

variable {m : Morph}

/-! ## As far as steps go -/

/-- A list is what it should be if nothing is refused, and otherwise a part of it from the front. -/
structure AsFar (refusal : Option Refusal) (l expected : List String) : Prop where
  front : l <+: expected
  whole : refusal = none → l = expected

theorem AsFar.refl (refusal : Option Refusal) (l : List String) : AsFar refusal l l :=
  ⟨List.prefix_refl l, fun _ => rfl⟩

theorem AsFar.append {refusal : Option Refusal} {l l' expected expected' : List String}
    (h : l = expected) (h' : AsFar refusal l' expected') :
    AsFar refusal (l ++ l') (expected ++ expected') := by
  subst h
  exact ⟨(List.prefix_append_right_inj l).2 h'.front, fun hnone => by rw [h'.whole hnone]⟩

/-- Where something has been refused, more may have been expected. -/
theorem AsFar.stop {r : Refusal} {l expected : List String} (h : AsFar (some r) l expected)
    (more : List String) : AsFar (some r) l (expected ++ more) :=
  ⟨h.front.trans (List.prefix_append _ _), fun hnone => by cases hnone⟩

/-! ## Values that come in -/

/-- The values of the literals whose paths a source accepts. -/
def acceptedValues (source : String) (literals : List (String × String)) : List String :=
  (literals.filter fun l => Source.accepts source l.1).map Prod.snd

theorem acceptedValues_append (source : String) (ls ls' : List (String × String)) :
    acceptedValues source (ls ++ ls') = acceptedValues source ls ++ acceptedValues source ls' := by
  simp [acceptedValues]

theorem acceptedValues_single (source path value : String) :
    acceptedValues source [(path, value)] =
      if Source.accepts source path then [value] else [] := by
  unfold acceptedValues
  by_cases h : Source.accepts source path = true <;> simp [h]

/-- The values that are emitted by collectors whose names are as described. -/
def emittedUnder (m : Morph) (named : String → Bool) (log : List Happening) : List String :=
  log.filterMap fun h => match h with
    | .emitted k v => if m.collectors[k]?.any (fun c => named c.name) then some v else none
    | _ => none

theorem emittedUnder_append (named : String → Bool) (l l' : List Happening) :
    m.emittedUnder named (l ++ l') = m.emittedUnder named l ++ m.emittedUnder named l' := by
  simp [emittedUnder]

/-- Only the names of the collectors of the program count. -/
theorem emittedUnder_congr {named : String → Bool} (named' : String → Bool)
    (h : ∀ c ∈ m.collectors, named c.name = named' c.name) (log : List Happening) :
    m.emittedUnder named log = m.emittedUnder named' log := by
  refine List.filterMap_congr fun x _ => ?_
  cases x with
  | met place value result => rfl
  | flushed k held => rfl
  | emitted k v =>
      cases hc : m.collectors[k]? with
      | none => simp only [hc, Option.any_none]
      | some c => simp only [hc, Option.any_some, h c (List.mem_of_getElem? hc)]

/-- If no collector has such a name, nothing is emitted under it. -/
theorem emittedUnder_eq_nil {named : String → Bool}
    (h : ∀ c ∈ m.collectors, named c.name = false) (log : List Happening) :
    m.emittedUnder named log = [] := by
  rw [emittedUnder_congr (fun _ => false) h]
  refine List.filterMap_eq_nil_iff.2 fun x _ => ?_
  cases x with
  | met place value result => rfl
  | flushed k held => rfl
  | emitted k v => cases hc : m.collectors[k]? <;> simp [hc]

/-! ## What enters a pipe -/

/-- During some steps values of their own enter the pipe at a place, and those that collectors emit
under a name its source accepts.  One of the two has to be missing: nothing is said of their order. -/
def Enters (m : Morph) (place : Nat) (source : String) (own : List String) (log : List Happening)
    (refusal : Option Refusal) : Prop :=
  own = [] ∨ m.emittedUnder (Source.accepts source) log = [] →
    AsFar refusal (metBy place log) (own ++ m.emittedUnder (Source.accepts source) log)

section Steps

variable {place : Nat} {source : String} {own own' : List String} {l l' : List Happening}
  {refusal : Option Refusal}

theorem Enters.nil : Enters m place source [] [] refusal :=
  fun _ => .refl _ _

theorem Enters.append (h : Enters m place source own l none)
    (h' : Enters m place source own' l' refusal) :
    Enters m place source (own ++ own') (l ++ l') refusal := by
  intro hguard
  rw [emittedUnder_append] at hguard ⊢
  rw [metBy_append]
  -- what is missing from both parts together is missing from each of them
  rcases hguard with hown | hemitted
  · obtain ⟨hfirst, hrest⟩ := List.append_eq_nil_iff.1 hown
    have hl := (h (.inl hfirst)).whole rfl
    have hl' := h' (.inl hrest)
    rw [hfirst, List.nil_append] at hl
    rw [hrest, List.nil_append] at hl'
    rw [hown, List.nil_append]
    exact .append hl hl'
  · obtain ⟨hfirst, hrest⟩ := List.append_eq_nil_iff.1 hemitted
    have hl := (h (.inr hfirst)).whole rfl
    have hl' := h' (.inr hrest)
    rw [hfirst, List.append_nil] at hl
    rw [hrest, List.append_nil] at hl'
    rw [hemitted, List.append_nil]
    exact .append hl hl'

/-- Behind a refusal nothing enters. -/
theorem Enters.stop {r : Refusal} (h : Enters m place source own l (some r)) (more : List String) :
    Enters m place source (own ++ more) l (some r) := by
  rintro (hown | hemitted)
  · obtain ⟨hfirst, hrest⟩ := List.append_eq_nil_iff.1 hown
    rw [hrest, List.append_nil]
    exact h (.inl hfirst)
  · have hl := h (.inr hemitted)
    rw [hemitted, List.append_nil] at hl ⊢
    exact hl.stop more

variable {σ : Type u} {α : Type v} {f : α → σ → Outcome σ} {log : α → σ → List Happening}

/-- Steps, and if none of them is refused, further steps. -/
theorem Enters.split {as bs : List α} {s : σ}
    (h : Enters m place source own (eachLog f log as s) (Outcome.each f as s).refusal)
    (h' : (Outcome.each f as s).refusal = none →
      Enters m place source own' (eachLog f log bs (Outcome.each f as s).state)
        (Outcome.each f bs (Outcome.each f as s).state).refusal) :
    Enters m place source (own ++ own') (eachLog f log (as ++ bs) s)
      (Outcome.each f (as ++ bs) s).refusal := by
  rw [eachLog_append, Outcome.each_append]
  cases hrefusal : (Outcome.each f as s).refusal with
  | some r =>
      rw [hrefusal] at h
      rw [Outcome.andThen_of_refusal hrefusal, hrefusal]
      simpa using h.stop own'
  | none =>
      rw [hrefusal] at h
      rw [Outcome.andThen_of_none hrefusal]
      simpa using h.append (h' hrefusal)

theorem Enters.single {a : α} {s : σ} (h : Enters m place source own (log a s) (f a s).refusal) :
    Enters m place source own (eachLog f log [a] s) (Outcome.each f [a] s).refusal := by
  have hlog : eachLog f log [a] s = log a s := by simp [eachLog]
  rw [hlog, Outcome.each_singleton]
  exact h

/-- What enters a pipe during steps is what enters during each of them. -/
theorem Enters.each (own : α → List String) {as : List α}
    (hstep : ∀ a ∈ as, ∀ s, Enters m place source (own a) (log a s) (f a s).refusal) (s : σ) :
    Enters m place source (as.flatMap own) (eachLog f log as s) (Outcome.each f as s).refusal := by
  induction as generalizing s with
  | nil => exact .nil
  | cons a rest ih =>
      obtain ⟨hfirst, hrest⟩ := List.forall_mem_cons.1 hstep
      exact Enters.split (.single (hfirst s)) fun _ => ih hrest _

end Steps

/-! ## Values under a path -/

/-- A source accepts the name of one collector at most. -/
def Sole (m : Morph) (source : String) : Prop :=
  ∀ (i k : Nat) (c d : NamedCollector), m.collectors[i]? = some c → m.collectors[k]? = some d →
    Source.accepts source c.name = true → Source.accepts source d.name = true → i = k

theorem flatMap_filter {α : Type u} {β : Type v} (g : α → Bool) (f : α → List β) (as : List α) :
    (as.filter g).flatMap f = as.flatMap fun a => if g a then f a else [] := by
  induction as with
  | nil => rfl
  | cons a rest ih => by_cases h : g a = true <;> simp [h, ih]

/-- If only one place counts, what stands there counts once. -/
theorem flatMap_zipIdx {α : Type u} {β : Type v} {as : List α} {n i : Nat} {a : α}
    (ha : as[i]? = some a) {f : α × Nat → List β} (hf : ∀ x k, k ≠ n + i → f (x, k) = []) :
    (as.zipIdx n).flatMap f = f (a, n + i) := by
  induction as generalizing n i with
  | nil => cases ha
  | cons b rest ih =>
      rw [List.zipIdx_cons, List.flatMap_cons]
      cases i with
      | zero =>
          obtain rfl := Option.some.inj ha
          -- the places behind the first one are larger
          have hrest : (rest.zipIdx (n + 1)).flatMap f = [] := by
            refine List.flatMap_eq_nil_iff.2 fun q hq => hf q.1 q.2 ?_
            have hle := List.le_snd_of_mem_zipIdx hq
            omega
          rw [hrest, List.append_nil]
          rfl
      | succ i =>
          rw [hf b n (by omega), List.nil_append]
          -- the place in the rest is one less
          have hshift : n + (i + 1) = n + 1 + i := by omega
          rw [hshift]
          exact ih ha fun x k hk => hf x k (by omega)

section Dispatch

variable {place : Nat} {p : Pipe}

/-- Of the pipes that listen to a path, the one at a place takes a value once. -/
theorem flatMap_listeners (hp : m.pipes[place]? = some p) (path value : String) :
    (m.listeners path).flatMap (fun q => if q.2 = place then [value] else []) =
      acceptedValues p.source [(path, value)] := by
  rw [acceptedValues_single, listeners_eq, flatMap_filter]
  refine (flatMap_zipIdx hp fun x k hk => ?_).trans ?_
  · have hne : k ≠ place := by omega
    simp [hne]
  · simp

/-- A value that meets a pipe enters this one. -/
theorem enters_met (source : String) (place : Nat) (q : Nat) (value : String)
    (result : Option String) (refusal : Option Refusal) :
    Enters m place source (if q = place then [value] else []) [.met q value result] refusal := by
  intro _
  have hemitted : m.emittedUnder (Source.accepts source) [.met q value result] = [] := rfl
  have hmet : metBy place [.met q value result] = if q = place then [value] else [] := by
    by_cases hq : q = place <;> simp [metBy, hq]
  rw [hemitted, hmet, List.append_nil]
  exact .refl _ _

/-- While the value of a collector goes its way, the collector emits nothing else. -/
theorem Layered.emittedUnder_dispatchLog (hm : m.Layered) {source : String} (hsole : m.Sole source)
    {k : Nat} {c : NamedCollector} (hc : m.collectors[k]? = some c)
    (haccepts : Source.accepts source c.name = true) (levels : Nat) (value : String) (s : State) :
    m.emittedUnder (Source.accepts source) (dispatchLog m levels c.name value s) = [] := by
  refine List.filterMap_eq_nil_iff.2 fun x hx => ?_
  have hbeyond := hm.beyond_dispatch levels (hm.forward k c hc) value s x hx
  cases x with
  | met place value result => rfl
  | flushed i held => rfl
  | emitted i v =>
      have hlt : k + 1 ≤ i := hbeyond
      refine if_neg fun hany => ?_
      obtain ⟨d, hd, hnamed⟩ := (Option.any_eq_true _ _).1 hany
      have hsame := hsole k i c d hc hd haccepts hnamed
      omega

/-- What a collector emits enters the pipe if its source accepts the name, and so does what comes of
it. -/
theorem Layered.enters_emission (hm : m.Layered) (hsole : m.Sole p.source) {levels : Nat}
    (hdispatch : ∀ path value s, Enters m place p.source (acceptedValues p.source [(path, value)])
      (dispatchLog m levels path value s) (dispatch m levels path value s).refusal)
    {k : Nat} {c : NamedCollector} (hc : m.collectors[k]? = some c) (value : String) (s : State) :
    Enters m place p.source [] (.emitted k value :: emitLog (dispatchLog m levels) c.name value s)
      (emitTo (dispatch m levels) c.name value s).refusal := by
  have hvariable := hm.names c (List.mem_of_getElem? hc)
  rw [emitLog, if_pos hvariable, emitTo, if_pos hvariable]
  -- what is let out is heard if the source accepts the name
  have hemitted : m.emittedUnder (Source.accepts p.source)
      (.emitted k value :: dispatchLog m levels c.name value s) =
        acceptedValues p.source [(c.name, value)] ++
          m.emittedUnder (Source.accepts p.source) (dispatchLog m levels c.name value s) := by
    rw [acceptedValues_single]
    by_cases haccepts : Source.accepts p.source c.name = true <;>
      simp [emittedUnder, hc, haccepts]
  intro _
  rw [hemitted]
  refine hdispatch c.name value s ?_
  -- a source that hears the collector hears no other one
  by_cases haccepts : Source.accepts p.source c.name = true
  · exact .inr (hm.emittedUnder_dispatchLog hsole hc haccepts levels value s)
  · exact .inl (by rw [acceptedValues_single, if_neg haccepts])

/-- A value under a path enters the pipe if its source accepts the path, and otherwise what
collectors make of it. -/
theorem Layered.enters_dispatch (hm : m.Layered) (hp : m.pipes[place]? = some p)
    (hsole : m.Sole p.source) (levels : Nat) (path value : String) (s : State) :
    Enters m place p.source (acceptedValues p.source [(path, value)])
      (dispatchLog m levels path value s) (dispatch m levels path value s).refusal := by
  -- by induction on the levels: what comes of the value in one pipe is a level further down
  induction levels generalizing path value s with
  | zero => exact Enters.nil.stop _
  | succ levels ih =>
      rw [← flatMap_listeners hp]
      refine Enters.each _ (fun q hq s' => ?_) s
      have hplaced := (mem_listeners hq).1
      have hmem : q.1 ∈ m.pipes := List.mem_of_getElem? hplaced
      have hrun := pipeRun m (emitTo (dispatch m levels)) (emitLog (dispatchLog m levels)) value q s'
      generalize runPipe m (emitTo (dispatch m levels)) value q s' = o,
        pipeLog m (emitLog (dispatchLog m levels)) value q s' = l at hrun
      cases hrun with
      | dropped _ | lost _ _ _ | kept _ _ _ => exact enters_met _ _ _ _ _ _
      | emits houtput _ =>
          rw [hm.emitLog_output hmem houtput]
          exact enters_met _ _ _ _ _ _
      | @answered s'' k input v w c houtput hc _ =>
          -- the value meets the pipe before the collector emits anything
          have hmet := (enters_met p.source place q.2 value (some v) none).append
            (hm.enters_emission hsole ih hc w s'')
          rwa [List.append_nil] at hmet

/-- What a collector emits at the end of a record enters the pipe if its source accepts the name. -/
theorem Layered.enters_flush (hm : m.Layered) (hp : m.pipes[place]? = some p)
    (hsole : m.Sole p.source) {d : NamedCollector × Nat} (hd : m.collectors[d.2]? = some d.1)
    (s : State) : Enters m place p.source [] (flushLog m d s) (flush m d s).refusal := by
  have hflushed : Enters m place p.source [] [.flushed d.2 (s.gathered.getD d.2 [])] none :=
    fun _ => .refl _ _
  unfold flush flushLog
  cases d.1.collector.flush (s.gathered.getD d.2 []) with
  | none => exact hflushed
  | some v =>
      exact hflushed.append
        (hm.enters_emission hsole (hm.enters_dispatch hp hsole Refusal.maxDepth) hd v s)

/-! ## Records -/

/-- Values on their way leave the open entities alone. -/
theorem entities_dispatch (levels : Nat) (path value : String) (s : State) :
    (dispatch m levels path value s).state.entities = s.entities := by
  induction levels generalizing path value s with
  | zero => rfl
  | succ levels ih =>
      -- what is let out is dispatched one level deeper, or handed on
      have hemit : ∀ name v s, (emitTo (dispatch m levels) name v s).state.entities = s.entities := by
        intro name v s
        unfold emitTo
        split
        · exact ih name v s
        · rfl
      refine Outcome.keeps_each (g := State.entities) (fun q _ s' => ?_) s
      unfold runPipe
      split
      · rfl
      split
      · exact hemit _ _ _
      split
      · rfl
      dsimp only
      split
      · exact hemit _ _ _
      · rfl

/-- Values of their own enter a pipe during some events, which lead to these open entities. -/
structure Visited (m : Morph) (place : Nat) (source : String) (own : List String) (es : List Event)
    (s : State) (around : List String) : Prop where
  enters : Enters m place source own (m.log es s) (Outcome.each m.step es s).refusal
  entities : (Outcome.each m.step es s).refusal = none →
    (Outcome.each m.step es s).state.entities = around

theorem Visited.append {source : String} {own own' around around' : List String}
    {es es' : List Event} {s : State} (h : Visited m place source own es s around)
    (h' : ∀ t, t.entities = around → Visited m place source own' es' t around') :
    Visited m place source (own ++ own') (es ++ es') s around' where
  enters := Enters.split h.enters fun hnone => (h' _ (h.entities hnone)).enters
  entities := by
    intro hnone
    obtain ⟨hfirst, hrest⟩ := Outcome.refusal_each_append.1 hnone
    rw [Outcome.each_append, Outcome.andThen_of_none hfirst]
    exact (h' _ (h.entities hfirst)).entities hrest

/-- Nothing enters when an entity starts. -/
theorem visited_startEntity (source name : String) {around : List String} {s : State}
    (hs : s.entities = around) :
    Visited m place source [] [.startEntity name] s (around ++ [name]) := by
  subst hs
  refine ⟨.single .nil, fun _ => ?_⟩
  rw [Outcome.each_singleton]
  rfl

/-- Nothing enters when an entity ends. -/
theorem visited_endEntity (source name : String) {around : List String} {s : State}
    (hs : s.entities = around ++ [name]) :
    Visited m place source [] [.endEntity] s around := by
  refine ⟨.single .nil, fun _ => ?_⟩
  rw [Outcome.each_singleton, step, if_neg (by simp [hs])]
  simp [Outcome.quiet, hs]

/-- A literal enters a pipe if the source accepts its path. -/
theorem Layered.visited_literal (hm : m.Layered) (hp : m.pipes[place]? = some p)
    (hsole : m.Sole p.source) (name value : String) {around : List String} {s : State}
    (hs : s.entities = around) :
    Visited m place p.source (acceptedValues p.source [(Source.path around name, value)])
      [.literal name value] s around := by
  subst hs
  refine ⟨.single (hm.enters_dispatch hp hsole _ _ value s), fun _ => ?_⟩
  rw [Outcome.each_singleton]
  exact entities_dispatch _ _ value s

/-- In the content of a record the values of its literals enter the pipe. -/
theorem Layered.visited_content (hm : m.Layered) (hp : m.pipes[place]? = some p)
    (hsole : m.Sole p.source) (content : Content) {around : List String} {s : State}
    (hs : s.entities = around) :
    Visited m place p.source (acceptedValues p.source (content.flat around)) content.events s
      around := by
  -- by induction on the content: inside an entity its name is open, and behind it no longer
  induction content generalizing around s with
  | done => exact ⟨.nil, fun _ => hs⟩
  | literal name value rest ih =>
      have hflat : (Content.literal name value rest).flat around =
          [(Source.path around name, value)] ++ rest.flat around := rfl
      rw [hflat, acceptedValues_append]
      exact (hm.visited_literal hp hsole name value hs).append fun _ ht => ih ht
  | entity name inner rest ihinner ihrest =>
      have hflat : (Content.entity name inner rest).flat around =
          inner.flat (around ++ [name]) ++ rest.flat around := by
        simp [Content.flat, Content.literals]
      rw [hflat, acceptedValues_append]
      refine (visited_startEntity p.source name hs).append ?_
      intro _ hstarted
      refine (ihinner hstarted).append ?_
      intro _ hinner
      refine (visited_endEntity p.source name hinner).append ?_
      intro _ hended
      exact ihrest hended

/-- At the end of a record what collectors emit enters the pipe. -/
theorem Layered.visited_endRecord (hm : m.Layered) (hp : m.pipes[place]? = some p)
    (hsole : m.Sole p.source) (s : State) :
    Visited m place p.source [] [.endRecord] s [] := by
  have hflushes := Enters.each (fun _ => [])
    (fun d hd s => hm.enters_flush hp hsole (from_collectors m d hd) s) s
  have hnone : (m.collectors.zipIdx.flatMap fun _ => ([] : List String)) = [] := by simp
  rw [hnone] at hflushes
  -- the event is refused if one of the collectors is
  cases hrefusal : (Outcome.each (flush m) m.collectors.zipIdx s).refusal with
  | some r =>
      have hstep : (m.step .endRecord s).refusal = some r := by
        rw [step, Outcome.andThen_of_refusal hrefusal, hrefusal]
      rw [hrefusal, ← hstep] at hflushes
      refine ⟨.single hflushes, fun haccepted => ?_⟩
      rw [Outcome.each_singleton, hstep] at haccepted
      cases haccepted
  | none =>
      have hstep : m.step .endRecord s =
          ⟨m.reset (Outcome.each (flush m) m.collectors.zipIdx s).state,
          (Outcome.each (flush m) m.collectors.zipIdx s).out ++ [.endRecord], none⟩ := by
        rw [step, Outcome.andThen_of_none hrefusal]
        rfl
      have hsame : (m.step .endRecord s).refusal = none := by rw [hstep]
      rw [hrefusal, ← hsame] at hflushes
      refine ⟨.single hflushes, fun _ => ?_⟩
      rw [Outcome.each_singleton, hstep]
      rfl

/-- In a layered program a pipe whose source accepts the name of one collector at most takes in the
literals that it accepts, or what the collector emits, in order. -/
theorem Layered.intake (hm : m.Layered) (hp : m.pipes[place]? = some p) (hsole : m.Sole p.source)
    (q : WholeRecord) (s : State) :
    Enters m place p.source (acceptedValues p.source (q.content.flat [])) (m.log q.events s)
      (Outcome.each m.step q.events s).refusal := by
  have hstart : Visited m place p.source [] [.startRecord q.id] s [] :=
    ⟨.single .nil, fun _ => by rw [Outcome.each_singleton]; rfl⟩
  have hrecord := hstart.append fun _ ht =>
    (hm.visited_content hp hsole q.content ht).append fun t _ => hm.visited_endRecord hp hsole t
  rw [List.append_nil] at hrecord
  exact hrecord.enters

end Dispatch
end Morph
end Recast
