import Recast.Proofs.Morph.Log
import Recast.Proofs.Stream.Outcome

/-!
# Depth — variables that feed variables

Pipes and collectors emit under variables, to which further pipes listen, and so on.  The relation
`Morph.Received` says what becomes of an event step by step, and counts how many variables a value
has come through: values that come through too many are refused.  For every event there is one such
chain of steps, and it ends with what the program answers: `Morph.received_iff`.

A path is *shallow* if what is emitted under it comes through few enough variables; then no value is
refused: `Morph.Shallow.refusal_dispatch`.
-/

namespace Recast
namespace Morph

variable {m : Morph}

/-! ## Turns -/

/-- A turn of a pipe or a collector: a new state, and what goes out under a name, if anything
does. -/
abbrev Turn := State → State × Option (String × String)

/-- Take a turn; `emit` takes what goes out. -/
def take (emit : String → String → State → Outcome State) (turn : Turn) (s : State) :
    Outcome State :=
  match turn s with
  | (s', none) => .quiet s'
  | (s', some (name, value)) => emit name value s'

/-- The turn of a pipe that has been handed a value. -/
def handing (m : Morph) (value : String) (p : Pipe × Nat) : Turn := fun s =>
  match passPipe p.1 (s.memories.getD p.2 []) value with
  | (none, ms) => ({ s with memories := s.memories.set p.2 ms }, none)
  | (some v, ms) =>
      let s := { s with memories := s.memories.set p.2 ms }
      match p.1.output with
      | .emit name => (s, some (name, v))
      | .gather place input =>
          match m.collectors[place]? with
          | none => (s, none)
          | some c =>
              let (out, held) := c.collector.receive (s.gathered.getD place []) input v
              ({ s with gathered := s.gathered.set place held }, out.map fun w => (c.name, w))

/-- The turn of a collector at the end of a record. -/
def flushing (c : NamedCollector × Nat) : Turn := fun s =>
  (s, (c.1.collector.flush (s.gathered.getD c.2 [])).map fun v => (c.1.name, v))

/-- Handing a value to a pipe is the turn of the pipe. -/
theorem runPipe_eq (emit : String → String → State → Outcome State) (value : String)
    (p : Pipe × Nat) (s : State) : runPipe m emit value p s = take emit (m.handing value p) s := by
  unfold runPipe take handing
  -- the two agree on each end that a value can come to
  cases passPipe p.1 (s.memories.getD p.2 []) value with
  | mk result ms =>
      cases result with
      | none => rfl
      | some v =>
          cases p.1.output with
          | emit name => rfl
          | gather place input =>
              simp only
              cases m.collectors[place]? with
              | none => rfl
              | some c =>
                  simp only
                  cases (c.collector.receive (s.gathered.getD place []) input v).1 <;> rfl

/-- Flushing a collector is its turn at the end of a record. -/
theorem flush_eq (c : NamedCollector × Nat) (s : State) :
    flush m c s = take (emitTo (dispatch m Refusal.maxDepth)) (flushing c) s := by
  unfold flush take flushing
  cases c.1.collector.flush (s.gathered.getD c.2 []) <;> rfl

/-- A value that is dispatched meets the turns of the pipes that listen. -/
theorem dispatch_eq (levels : Nat) (path value : String) (s : State) :
    dispatch m (levels + 1) path value s =
      Outcome.each (take (emitTo (dispatch m levels)))
        ((m.listeners path).map (m.handing value)) s := by
  have hpipes : m.runPipe (emitTo (dispatch m levels)) value =
      fun p => take (emitTo (dispatch m levels)) (m.handing value p) := by
    funext p s
    exact runPipe_eq _ _ p s
  rw [Outcome.each_map, dispatch, hpipes]

/-- At the end of a record the collectors take their turns. -/
theorem step_endRecord (s : State) :
    step m .endRecord s = (Outcome.each (take (emitTo (dispatch m Refusal.maxDepth)))
      (m.collectors.zipIdx.map flushing) s).andThen fun t => .hand (m.reset t) .endRecord := by
  have hflush : m.flush = fun c => take (emitTo (dispatch m Refusal.maxDepth)) (flushing c) := by
    funext c s
    exact flush_eq c s
  rw [Outcome.each_map, step, hflush]

/-! ## Values on their way -/

mutual
/-- What becomes of a value that is dispatched under a path after it has come through a number of
variables. -/
inductive Dispatched (m : Morph) : Nat → String → String → State → Outcome State → Prop
  | deep {depth : Nat} {path value : String} {s : State} (h : Refusal.maxDepth < depth) :
      Dispatched m depth path value s (.refuse s (.tooDeep path))
  | listened {depth : Nat} {path value : String} {s : State} {o : Outcome State}
      (h : depth ≤ Refusal.maxDepth)
      (turns : Taken m depth ((m.listeners path).map (m.handing value)) s o) :
      Dispatched m depth path value s o

/-- What becomes of turns that are taken one after the other, each with all that follows from it. -/
inductive Taken (m : Morph) : Nat → List Turn → State → Outcome State → Prop
  | done {depth : Nat} {s : State} : Taken m depth [] s (.quiet s)
  | silent {depth : Nat} {turn : Turn} {rest : List Turn} {s s' : State} {o : Outcome State}
      (h : turn s = (s', none)) (later : Taken m depth rest s' o) :
      Taken m depth (turn :: rest) s o
  | stopped {depth : Nat} {turn : Turn} {rest : List Turn} {s s' : State} {name value : String}
      {o : Outcome State} {r : Refusal} (h : turn s = (s', some (name, value)))
      (first : Emitted m depth name value s' o) (hr : o.refusal = some r) :
      Taken m depth (turn :: rest) s o
  | went {depth : Nat} {turn : Turn} {rest : List Turn} {s s' : State} {name value : String}
      {o o' : Outcome State} (h : turn s = (s', some (name, value)))
      (first : Emitted m depth name value s' o) (hr : o.refusal = none)
      (later : Taken m depth rest o.state o') :
      Taken m depth (turn :: rest) s ⟨o'.state, o.out ++ o'.out, o'.refusal⟩

inductive Emitted (m : Morph) : Nat → String → String → State → Outcome State → Prop
  | back {depth : Nat} {name value : String} {s : State} {o : Outcome State}
      (h : Script.isVariable name = true) (further : Dispatched m (depth + 1) name value s o) :
      Emitted m depth name value s o
  | out {depth : Nat} {name value : String} {s : State} (h : Script.isVariable name = false) :
      Emitted m depth name value s (.hand s (.literal name value))
end

inductive Received (m : Morph) : Event → State → Outcome State → Prop
  | literal {name value : String} {s : State} {o : Outcome State}
      (h : Dispatched m 0 (Source.path s.entities name) value s o) :
      Received m (.literal name value) s o
  | endRecord {s : State} {o : Outcome State}
      (h : Taken m 0 (m.collectors.zipIdx.map flushing) s o) :
      Received m .endRecord s (o.andThen fun t => .hand (m.reset t) .endRecord)
  | startRecord {id : String} {s : State} :
      Received m (.startRecord id) s (.hand (m.reset s) (.startRecord id))
  | startEntity {name : String} {s : State} :
      Received m (.startEntity name) s (.quiet { s with entities := s.entities ++ [name] })
  | endEntity {s : State} (h : s.entities ≠ []) :
      Received m .endEntity s (.quiet { s with entities := s.entities.dropLast })
  | noEntity {s : State} (h : s.entities = []) :
      Received m .endEntity s (.refuse s .noEntity)

/-- Turns end with what a run of them gives, if what goes out does. -/
theorem taken_iff {depth : Nat} {emit : String → String → State → Outcome State}
    (hemit : ∀ name value s o, Emitted m depth name value s o ↔ o = emit name value s)
    {turns : List Turn} {s : State} {o : Outcome State} :
    Taken m depth turns s o ↔ o = Outcome.each (take emit) turns s := by
  induction turns generalizing s o with
  | nil =>
      constructor
      · rintro ⟨⟩
        rfl
      · rintro rfl
        exact .done
  | cons turn rest ih =>
      rw [Outcome.each_cons, take]
      constructor
      · -- the relation names a turn for each way that the sequence can go on
        intro h
        cases h with
        | silent h later =>
            rw [h]
            simpa using ih.1 later
        | stopped h first hr =>
            obtain rfl := (hemit _ _ _ _).1 first
            rw [h]
            exact (Outcome.andThen_of_refusal hr _).symm
        | went h first hr later =>
            obtain rfl := (hemit _ _ _ _).1 first
            rw [h, ih.1 later]
            exact (Outcome.andThen_of_none hr _).symm
      · rintro rfl
        -- the turn says which way it goes
        rcases hturn : turn s with ⟨s', _ | ⟨name, value⟩⟩
        · exact .silent hturn (ih.2 (by simp))
        · have first := (hemit name value s' _).2 rfl
          cases hr : (emit name value s').refusal with
          | some r =>
              simp only [Outcome.andThen_of_refusal hr]
              exact .stopped hturn first hr
          | none =>
              simp only [Outcome.andThen_of_none hr]
              exact .went hturn first hr (ih.2 rfl)

/-- What goes out leads to what is dispatched if it goes out under a variable, and is handed on if
not. -/
theorem emitted_iff {depth : Nat} {dispatch : String → String → State → Outcome State}
    (h : ∀ path value s o, Dispatched m (depth + 1) path value s o ↔ o = dispatch path value s)
    (name value : String) (s : State) (o : Outcome State) :
    Emitted m depth name value s o ↔ o = emitTo dispatch name value s := by
  unfold emitTo
  constructor
  · rintro (⟨hname, further⟩ | hname)
    · rw [if_pos hname]
      exact (h _ _ _ _).1 further
    · rw [if_neg (by simp [hname])]
  · rintro rfl
    by_cases hname : Script.isVariable name = true
    · rw [if_pos hname]
      exact .back hname ((h _ _ _ _).2 rfl)
    · rw [if_neg hname]
      exact .out (by simpa using hname)

/-- A value that is dispatched leads to what the program makes of it, as many levels above the end as
it has left. -/
theorem dispatched_iff (depth : Nat) (path value : String) (s : State) (o : Outcome State) :
    Dispatched m depth path value s o ↔
      o = dispatch m (Refusal.maxDepth + 1 - depth) path value s := by
  generalize hlevels : Refusal.maxDepth + 1 - depth = levels
  induction levels generalizing depth path value s o with
  | zero =>
      constructor
      · rintro (h | ⟨h, -⟩)
        · rfl
        · omega
      · rintro rfl
        exact .deep (by omega)
  | succ levels ih =>
      -- what is let out on this level is dispatched one level deeper
      have hemit := emitted_iff (fun path value s o => ih (depth + 1) path value s o (by omega))
      rw [dispatch_eq, ← taken_iff hemit]
      constructor
      · rintro (h | ⟨-, turns⟩)
        · omega
        · exact turns
      · exact .listened (by omega)

/-- Whatever the rules of a script are, an event comes to an end in one way: with what the program
answers. -/
theorem received_iff (e : Event) (s : State) (o : Outcome State) :
    Received m e s o ↔ o = m.step e s := by
  -- at the end of a record the collectors take their turns in the same way
  have hflush : ∀ t o, Taken m 0 (m.collectors.zipIdx.map flushing) t o ↔
      o = Outcome.each (take (emitTo (dispatch m Refusal.maxDepth)))
        (m.collectors.zipIdx.map flushing) t :=
    fun _ _ => taken_iff (emitted_iff (dispatched_iff 1))
  constructor
  · rintro (h | h | _ | _ | h | h)
    · exact (dispatched_iff ..).1 h
    · rw [(hflush _ _).1 h, step_endRecord]
    · rfl
    · rfl
    · simp [step, h]
    · simp [step, h]
  · rintro rfl
    cases e with
    | startRecord id => exact .startRecord
    | endRecord =>
        rw [step_endRecord]
        exact .endRecord ((hflush _ _).2 rfl)
    | startEntity name => exact .startEntity
    | endEntity =>
        rw [step]
        by_cases h : s.entities = []
        · rw [if_pos (by simp [h])]
          exact .noEntity h
        · rw [if_neg (by simp [h])]
          exact .endEntity h
    | literal name value => exact .literal ((dispatched_iff ..).2 rfl)

/-! ## Shallow paths -/

/-- What a pipe lets out goes out under a name, at once or through a collector. -/
def LetsOut (m : Morph) (p : Pipe) (name : String) : Prop :=
  p.output = .emit name ∨
    ∃ place input c, p.output = .gather place input ∧ m.collectors[place]? = some c ∧ c.name = name

/-- Values under a path come through fewer than `n` variables. -/
def Shallow (m : Morph) : Nat → String → Prop
  | 0, _ => False
  | n + 1, path => ∀ p ∈ m.pipes, Source.accepts p.source path = true → ∀ name, m.LetsOut p name →
      Script.isVariable name = true → Shallow m n name

/-- A turn of a pipe lets nothing out under another name. -/
theorem letsOut_of_handing {value : String} {p : Pipe × Nat} {s s' : State} {name v : String}
    (h : m.handing value p s = (s', some (name, v))) : m.LetsOut p.1 name := by
  unfold handing at h
  cases hpass : passPipe p.1 (s.memories.getD p.2 []) value with
  | mk result ms =>
      rw [hpass] at h
      cases result with
      | none => cases h
      | some w =>
          -- a rule lets out its own name, or that of the collector it fills
          cases houtput : p.1.output with
          | emit n =>
              simp only [houtput] at h
              have hname : n = name := congrArg Prod.fst (Option.some.inj (congrArg Prod.snd h))
              exact .inl (hname ▸ houtput)
          | gather place input =>
              simp only [houtput] at h
              cases hc : m.collectors[place]? with
              | none => simp [hc] at h
              | some c =>
                  simp only [hc] at h
                  obtain ⟨w', -, hw⟩ := Option.map_eq_some_iff.1 (congrArg Prod.snd h)
                  exact .inr ⟨place, input, c, houtput, hc, congrArg Prod.fst hw⟩

/-- If no value that goes out under a variable comes through too many variables, turns do not lead to
values that do. -/
theorem refusal_turns {levels : Nat} {turns : List Turn}
    (h : ∀ turn ∈ turns, ∀ s s' name v, turn s = (s', some (name, v)) →
      Script.isVariable name = true → ∀ value s r, (dispatch m levels name value s).refusal = some r →
        ∀ path, r ≠ .tooDeep path) (s : State) :
    ∀ r, (Outcome.each (take (emitTo (dispatch m levels))) turns s).refusal = some r →
      ∀ path, r ≠ .tooDeep path := by
  refine (Outcome.each_invariant (I := fun _ => True) (fun turn hturn s _ => ⟨trivial, ?_⟩)
    trivial).2
  rcases hout : turn s with ⟨s', _ | ⟨name, v⟩⟩
  · simp [take, hout, Outcome.quiet]
  · simp only [take, hout, emitTo]
    by_cases hname : Script.isVariable name = true
    · rw [if_pos hname]
      exact h turn hturn s s' name v hout hname v s'
    · simp [hname, Outcome.hand]

/-- No value under a shallow path is refused for having come through too many variables. -/
theorem Shallow.refusal_dispatch {levels : Nat} {path : String} (h : m.Shallow levels path)
    (value : String) (s : State) : ∀ r, (dispatch m levels path value s).refusal = some r →
      ∀ v, r ≠ .tooDeep v := by
  induction levels generalizing path value s with
  | zero => exact absurd h id
  | succ levels ih =>
      rw [dispatch_eq]
      refine refusal_turns (fun turn hturn s s' name v hout hname => ?_) s
      obtain ⟨p, hp, rfl⟩ := List.mem_map.1 hturn
      obtain ⟨hplace, haccepts⟩ := mem_listeners hp
      exact ih (h p.1 (List.mem_of_getElem? hplace) haccepts name (letsOut_of_handing hout) hname)

/-- No event is refused for values that come through too many variables, if all paths are shallow as
those of literals, and the names of collectors as those of variables. -/
theorem refusal_step_of_shallow (hpaths : ∀ path, m.Shallow (Refusal.maxDepth + 1) path)
    (hnames : ∀ c ∈ m.collectors, m.Shallow Refusal.maxDepth c.name) (e : Event) (s : State)
    (v : String) : (m.step e s).refusal ≠ some (.tooDeep v) := by
  intro hr
  cases e with
  | startRecord id => cases hr
  | startEntity name => cases hr
  | endEntity =>
      rw [step] at hr
      split at hr <;> cases hr
  | literal name value => exact (hpaths _).refusal_dispatch value s _ hr v rfl
  | endRecord =>
      rw [step_endRecord] at hr
      -- what a collector lets out at the end is one level deeper than the record
      have hflushes : ∀ r, (Outcome.each (take (emitTo (dispatch m Refusal.maxDepth)))
          (m.collectors.zipIdx.map flushing) s).refusal = some r → ∀ v, r ≠ .tooDeep v := by
        refine refusal_turns (fun turn hturn t t' name w hout _ => ?_) s
        obtain ⟨c, hc, rfl⟩ := List.mem_map.1 hturn
        obtain ⟨u, -, hu⟩ := Option.map_eq_some_iff.1 (congrArg Prod.snd hout)
        obtain rfl : c.1.name = name := congrArg Prod.fst hu
        have hmem := List.mem_of_getElem? (List.mem_zipIdx_iff_getElem?.1 hc)
        exact (hnames c.1 hmem).refusal_dispatch
      have hall := Outcome.refusal_andThen_of (P := fun r => ∀ v, r ≠ .tooDeep v)
        (g := fun t => .hand (m.reset t) .endRecord) hflushes (fun _ r hr => by cases hr)
      exact hall _ hr v rfl

end Morph
end Recast
