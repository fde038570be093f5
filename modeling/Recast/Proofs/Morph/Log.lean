import Mathlib.Data.List.GetD
import Recast.Proofs.Stream.Content
import Recast.Proofs.Morph.Index
import Recast.Proofs.Stream.Outcome

/-!
# Log — what happens inside a program

From outside only the literals can be seen that a program hands on.  Its log says what happens in
between: which values meet which pipes and what becomes of them, what collectors emit, and when they
are flushed.  The log is a function of the same states that the program passes through.

* `Morph.Happening`, `Morph.log` — the log of events;
* `Morph.PipeRun` — all that can happen to a value in one pipe;
* `Morph.deliveries`, `Morph.Replay` — what a collector holds is what the log says that it has been
  given.
-/

namespace Recast
namespace Morph

/-! ## The log -/

/-- Something that happens inside a program. -/
inductive Happening where
  /-- A value meets the pipe at a place, and this becomes of it. -/
  | met (pipe : Nat) (value : String) (result : Option String)
  /-- The collector at a place emits a value. -/
  | emitted (collector : Nat) (value : String)
  /-- The collector at a place is flushed while it holds this. -/
  | flushed (collector : Nat) (held : Collector.Memory)
  deriving DecidableEq, Repr

section Each

variable {σ : Type u} {α : Type v}

/-- The log of steps taken one after the other, as long as none of them is refused. -/
def eachLog (f : α → σ → Outcome σ) (log : α → σ → List Happening) : List α → σ → List Happening
  | [], _ => []
  | a :: rest, s =>
      log a s ++ if (f a s).refusal.isSome then [] else eachLog f log rest (f a s).state

end Each

/-- What happens when a value meets a pipe; `log` says what happens to what goes out under a
name. -/
def pipeLog (m : Morph) (log : String → String → State → List Happening) (value : String)
    (p : Pipe × Nat) (s : State) : List Happening :=
  match passPipe p.1 (s.memories.getD p.2 []) value with
  | (none, _) => [.met p.2 value none]
  | (some v, ms) =>
      let s := { s with memories := s.memories.set p.2 ms }
      .met p.2 value (some v) ::
        match p.1.output with
        | .emit name => log name v s
        | .gather place input =>
            match m.collectors[place]? with
            | none => []
            | some c =>
                let (out, held) := c.collector.receive (s.gathered.getD place []) input v
                let s := { s with gathered := s.gathered.set place held }
                match out with
                | some w => .emitted place w :: log c.name w s
                | none => []

/-- What happens to a value that goes out under a name. -/
def emitLog (log : String → String → State → List Happening) (name value : String) (s : State) :
    List Happening :=
  if Script.isVariable name then log name value s else []

/-- What happens to a value under a path. -/
def dispatchLog (m : Morph) : Nat → String → String → State → List Happening
  | 0, _, _, _ => []
  | levels + 1, path, value, s =>
      eachLog (runPipe m (emitTo (dispatch m levels)) value)
        (pipeLog m (emitLog (dispatchLog m levels)) value) (m.listeners path) s

/-- What happens when the collector at a place is flushed. -/
def flushLog (m : Morph) (c : NamedCollector × Nat) (s : State) : List Happening :=
  .flushed c.2 (s.gathered.getD c.2 []) ::
    match c.1.collector.flush (s.gathered.getD c.2 []) with
    | some v => .emitted c.2 v :: emitLog (dispatchLog m Refusal.maxDepth) c.1.name v s
    | none => []

/-- What happens at an event. -/
def stepLog (m : Morph) (e : Event) (s : State) : List Happening :=
  match e with
  | .endRecord => eachLog (flush m) (flushLog m) m.collectors.zipIdx s
  | .literal name value => dispatchLog m (Refusal.maxDepth + 1) (Source.path s.entities name) value s
  | .startRecord _ | .startEntity _ | .endEntity => []

def log (m : Morph) (es : List Event) (s : State) : List Happening :=
  eachLog m.step m.stepLog es s

/-! ## Logs of several steps -/

section Each

variable {σ : Type u} {α : Type v} {f : α → σ → Outcome σ} {log : α → σ → List Happening}

/-- A step that is not refused is followed by the log of the others. -/
theorem eachLog_cons_of_none {a : α} {rest : List α} {s : σ} (h : (f a s).refusal = none) :
    eachLog f log (a :: rest) s = log a s ++ eachLog f log rest (f a s).state := by
  simp [eachLog, h]

/-- Behind a step that is refused nothing happens. -/
theorem eachLog_cons_of_some {a : α} {rest : List α} {s : σ} {r : Refusal}
    (h : (f a s).refusal = some r) : eachLog f log (a :: rest) s = log a s := by
  simp [eachLog, h]

theorem eachLog_eq_trace (as : List α) (s : σ) :
    eachLog f log as s = Outcome.trace f log as s := by
  induction as generalizing s with
  | nil => rfl
  | cons a rest ih => simp only [eachLog, Outcome.trace, ih]

/-- Whatever happens happens at one of the steps. -/
theorem mem_eachLog {as : List α} {s : σ} {h : Happening} (hmem : h ∈ eachLog f log as s) :
    ∃ a ∈ as, ∃ s', h ∈ log a s' := by
  rw [eachLog_eq_trace] at hmem
  exact Outcome.mem_trace hmem

/-- The log of a step is part of the log of all steps, if none is refused. -/
theorem sublist_eachLog {as : List α} {s : σ} (h : (Outcome.each f as s).refusal = none) {a : α}
    (ha : a ∈ as) : ∃ s', (log a s').Sublist (eachLog f log as s) := by
  induction as generalizing s with
  | nil => cases ha
  | cons b rest ih =>
      obtain ⟨hb, hrest⟩ := Outcome.refusal_each_cons.1 h
      rw [eachLog_cons_of_none hb]
      rcases List.mem_cons.1 ha with rfl | ha
      · exact ⟨s, List.sublist_append_left _ _⟩
      · obtain ⟨s', hsub⟩ := ih hrest ha
        exact ⟨s', hsub.trans (List.sublist_append_right _ _)⟩

/-- What is true of the logs of single steps and kept by joining logs is true of the whole log, if no
step is refused. -/
theorem eachLog_of_append {P : List Happening → Prop} (hnil : P [])
    (happend : ∀ l l', P l → P l' → P (l ++ l')) {as : List α} {s : σ}
    (hstep : ∀ a ∈ as, ∀ s, (f a s).refusal = none → P (log a s))
    (h : (Outcome.each f as s).refusal = none) : P (eachLog f log as s) := by
  induction as generalizing s with
  | nil => exact hnil
  | cons a rest ih =>
      obtain ⟨ha, hrest⟩ := Outcome.refusal_each_cons.1 h
      rw [eachLog_cons_of_none ha]
      exact happend _ _ (hstep a List.mem_cons_self s ha)
        (ih (fun b hb => hstep b (List.mem_cons_of_mem _ hb)) hrest)

/-- The log of two lists is that of the first, and that of the second if the first has not been
refused. -/
theorem eachLog_append (as bs : List α) (s : σ) :
    eachLog f log (as ++ bs) s = eachLog f log as s ++
      if (Outcome.each f as s).refusal.isSome then [] else
        eachLog f log bs (Outcome.each f as s).state := by
  simp only [eachLog_eq_trace]
  exact Outcome.trace_append as bs s

end Each

/-! ## One pipe -/

variable {m : Morph}

/-- All that can happen when a value meets a pipe: what is held then, what becomes of the value, and
the log. -/
inductive PipeRun (m : Morph) (emit : String → String → State → Outcome State)
    (log : String → String → State → List Happening) (value : String) (p : Pipe × Nat)
    (s : State) : Outcome State → List Happening → Prop
  | dropped {s' : State} (hheld : s'.gathered = s.gathered) :
      PipeRun m emit log value p s (.quiet s') [.met p.2 value none]
  | emits {s' : State} {name v : String} (houtput : p.1.output = .emit name)
      (hheld : s'.gathered = s.gathered) :
      PipeRun m emit log value p s (emit name v s') (.met p.2 value (some v) :: log name v s')
  | lost {s' : State} {place : Nat} {input v : String} (houtput : p.1.output = .gather place input)
      (hnone : m.collectors[place]? = none) (hheld : s'.gathered = s.gathered) :
      PipeRun m emit log value p s (.quiet s') [.met p.2 value (some v)]
  | kept {s' : State} {place : Nat} {input v : String} {c : NamedCollector}
      (houtput : p.1.output = .gather place input) (hc : m.collectors[place]? = some c)
      (hheld : s'.gathered = s.gathered.set place
        (c.collector.receive (s.gathered.getD place []) input v).2) :
      PipeRun m emit log value p s (.quiet s') [.met p.2 value (some v)]
  | answered {s' : State} {place : Nat} {input v w : String} {c : NamedCollector}
      (houtput : p.1.output = .gather place input) (hc : m.collectors[place]? = some c)
      (hheld : s'.gathered = s.gathered.set place
        (c.collector.receive (s.gathered.getD place []) input v).2) :
      PipeRun m emit log value p s (emit c.name w s')
        (.met p.2 value (some v) :: .emitted place w :: log c.name w s')

/-- What a pipe does and what is logged of it is one of the cases. -/
theorem pipeRun (m : Morph) (emit : String → String → State → Outcome State)
    (log : String → String → State → List Happening) (value : String) (p : Pipe × Nat) (s : State) :
    PipeRun m emit log value p s (runPipe m emit value p s) (pipeLog m log value p s) := by
  unfold runPipe pipeLog
  cases hpass : passPipe p.1 (s.memories.getD p.2 []) value with
  | mk result ms =>
      cases result with
      | none => exact .dropped rfl
      | some v =>
          cases houtput : p.1.output with
          | emit name => exact .emits houtput rfl
          | gather place input =>
              cases hc : m.collectors[place]? with
              | none =>
                  simp only [hc]
                  exact .lost houtput hc rfl
              | some c =>
                  simp only [hc]
                  cases hreceive : c.collector.receive (s.gathered.getD place []) input v with
                  | mk out held =>
                      cases out with
                      | none => exact .kept houtput hc (by rw [hreceive])
                      | some w => exact .answered houtput hc (by rw [hreceive])

/-- A pipe that listens stands at its place, and its source accepts the path. -/
theorem mem_listeners {path : String} {p : Pipe × Nat} (h : p ∈ m.listeners path) :
    m.pipes[p.2]? = some p.1 ∧ Source.accepts p.1.source path = true := by
  rw [listeners_eq] at h
  obtain ⟨hmem, haccepts⟩ := List.mem_filter.1 h
  exact ⟨List.mem_zipIdx_iff_getElem?.1 hmem, haccepts⟩

/-- A pipe whose source accepts a path listens to it. -/
theorem mem_listeners_of_accepts {path : String} {place : Nat} {p : Pipe}
    (hp : m.pipes[place]? = some p) (haccepts : Source.accepts p.source path = true) :
    (p, place) ∈ m.listeners path := by
  rw [listeners_eq]
  exact List.mem_filter.2 ⟨List.mem_zipIdx_iff_getElem?.2 hp, haccepts⟩

/-! ## Deliveries -/

/-- The collector to which a value is delivered, the input under which it is, and the value. -/
def delivery? (m : Morph) : Happening → Option (Nat × String × String)
  | .met place _ (some w) =>
      match m.pipes[place]? with
      | some ⟨_, _, _, .gather k input⟩ => some (k, input, w)
      | _ => none
  | _ => none

def deliveries (m : Morph) (k : Nat) (log : List Happening) : List (String × String) :=
  (log.filterMap m.delivery?).filterMap fun d => if d.1 = k then some d.2 else none

@[simp] theorem deliveries_append (k : Nat) (l l' : List Happening) :
    m.deliveries k (l ++ l') = m.deliveries k l ++ m.deliveries k l' := by
  simp [deliveries]

@[simp] theorem deliveries_emitted (k i : Nat) (v : String) (l : List Happening) :
    m.deliveries k (.emitted i v :: l) = m.deliveries k l := rfl

@[simp] theorem deliveries_flushed (k i : Nat) (held : Collector.Memory) (l : List Happening) :
    m.deliveries k (.flushed i held :: l) = m.deliveries k l := rfl

/-- A value that leaves a pipe to a collector is delivered to it. -/
theorem delivery?_met {place k : Nat} {p : Pipe} {input v w : String}
    (hp : m.pipes[place]? = some p) (houtput : p.output = .gather k input) :
    m.delivery? (.met place v (some w)) = some (k, input, w) := by
  obtain ⟨source, filter, functions, output⟩ := p
  obtain rfl := houtput
  simp [delivery?, hp]

/-- A value that goes out under a name is delivered to no collector. -/
theorem delivery?_emits {place : Nat} {p : Pipe} {name v w : String}
    (hp : m.pipes[place]? = some p) (houtput : p.output = .emit name) :
    m.delivery? (.met place v (some w)) = none := by
  obtain ⟨source, filter, functions, output⟩ := p
  obtain rfl := houtput
  simp [delivery?, hp]

def heldAfter (c : NamedCollector) (held : Collector.Memory) (ds : List (String × String)) :
    Collector.Memory :=
  ds.foldl (fun held d => (c.collector.receive held d.1 d.2).2) held

/-! ## Replays -/

/-- What the collector `c` at a place holds in a later state is what it holds after the deliveries of
the log. -/
structure Replay (m : Morph) (k : Nat) (c : NamedCollector) (s : State) (log : List Happening)
    (s' : State) : Prop where
  length : s'.gathered.length = s.gathered.length
  held : k < s.gathered.length →
    s'.gathered.getD k [] = heldAfter c (s.gathered.getD k []) (m.deliveries k log)

namespace Replay

variable {k : Nat} {c : NamedCollector} {s s' s'' : State} {l l' : List Happening}

theorem of_eq (h : s'.gathered = s.gathered) (hnone : m.deliveries k l = []) :
    Replay m k c s l s' :=
  ⟨by rw [h], fun _ => by rw [h, hnone]; rfl⟩

theorem append (h : Replay m k c s l s') (h' : Replay m k c s' l' s'') :
    Replay m k c s (l ++ l') s'' := by
  refine ⟨h'.length.trans h.length, ?_⟩
  intro hk
  have hk' : k < s'.gathered.length := by
    rw [h.length]
    exact hk
  calc s''.gathered.getD k []
      = heldAfter c (heldAfter c (s.gathered.getD k []) (m.deliveries k l))
          (m.deliveries k l') := by
        rw [h'.held hk', h.held hk]
    _ = heldAfter c (s.gathered.getD k []) (m.deliveries k (l ++ l')) := by
        rw [deliveries_append, heldAfter, heldAfter, heldAfter, List.foldl_append]

/-- Steps whose logs can be replayed have a log that can be replayed. -/
theorem each {σ : Type v} {f : σ → State → Outcome State} {log : σ → State → List Happening}
    {as : List σ} (hstep : ∀ a ∈ as, ∀ s, Replay m k c s (log a s) (f a s).state) (s : State) :
    Replay m k c s (eachLog f log as s) (Outcome.each f as s).state := by
  induction as generalizing s with
  | nil => exact of_eq rfl rfl
  | cons a rest ih =>
      have hfirst := hstep a List.mem_cons_self s
      cases h : (f a s).refusal with
      | some r =>
          rw [eachLog_cons_of_some h, Outcome.each_cons, Outcome.andThen_of_refusal h]
          exact hfirst
      | none =>
          rw [eachLog_cons_of_none h, Outcome.each_cons, Outcome.andThen_of_none h]
          exact hfirst.append (ih (fun b hb => hstep b (List.mem_cons_of_mem _ hb)) _)

/-- A value that is delivered is received by its collector. -/
theorem received {place : Nat} {p : Pipe} {input value v : String} {c' : NamedCollector}
    (hc : m.collectors[k]? = some c) {i : Nat} (hp : m.pipes[place]? = some p)
    (houtput : p.output = .gather i input) (hc' : m.collectors[i]? = some c')
    (hheld : s'.gathered = s.gathered.set i
      (c'.collector.receive (s.gathered.getD i []) input v).2) :
    Replay m k c s [.met place value (some v)] s' := by
  refine ⟨by rw [hheld, List.length_set], fun hk => ?_⟩
  have hdelivery := delivery?_met (v := value) (w := v) hp houtput
  by_cases hik : i = k
  · subst hik
    obtain rfl := Option.some.inj (hc.symm.trans hc')
    simp [deliveries, hdelivery, heldAfter, hheld, List.getD_eq_getElem?_getD, hk]
  · simp [deliveries, hdelivery, hik, heldAfter, hheld, List.getD_eq_getElem?_getD,
      List.getElem?_set_ne hik]

variable {emit : String → String → State → Outcome State}
  {log : String → String → State → List Happening}

/-- The log of a pipe can be replayed. -/
theorem pipe (hc : m.collectors[k]? = some c)
    (hemit : ∀ name v s, Replay m k c s (log name v s) (emit name v s).state) {p : Pipe × Nat}
    (hp : m.pipes[p.2]? = some p.1) (value : String) (s : State) :
    Replay m k c s (pipeLog m log value p s) (runPipe m emit value p s).state := by
  have hrun := pipeRun m emit log value p s
  generalize runPipe m emit value p s = o, pipeLog m log value p s = l at hrun
  cases hrun with
  | dropped hheld => exact of_eq hheld rfl
  | @emits s' name v houtput hheld =>
      have hnone : m.deliveries k [.met p.2 value (some v)] = [] := by
        simp [deliveries, delivery?_emits hp houtput]
      exact (of_eq hheld hnone).append (hemit name v s')
  | @lost s' place input v houtput hnone hheld =>
      refine of_eq hheld ?_
      -- there is no collector at this place, so it is another one
      have hne : place ≠ k := by
        rintro rfl
        simp [hnone] at hc
      simp [deliveries, delivery?_met hp houtput, hne]
  | kept houtput hc' hheld => exact received hc hp houtput hc' hheld
  | @answered s' place input v w c' houtput hc' hheld =>
      have hemitted : Replay m k c s' [.emitted place w] s' := of_eq rfl rfl
      exact (received hc hp houtput hc' hheld).append (hemitted.append (hemit c'.name w s'))

theorem emitted (hemit : ∀ name v s, Replay m k c s (log name v s) (emit name v s).state)
    (name v : String) (s : State) :
    Replay m k c s (emitLog log name v s) (emitTo emit name v s).state := by
  unfold emitLog emitTo
  split
  · exact hemit name v s
  · exact of_eq rfl rfl

/-- The log of a value that is dispatched can be replayed. -/
theorem dispatched (hc : m.collectors[k]? = some c) (levels : Nat) (path value : String)
    (s : State) :
    Replay m k c s (dispatchLog m levels path value s) (dispatch m levels path value s).state := by
  induction levels generalizing path value s with
  | zero => exact of_eq rfl rfl
  | succ levels ih =>
      exact each (fun p hp s => pipe hc (emitted ih) (mem_listeners hp).1 value s) s

/-- The log of a collector that is flushed can be replayed. -/
theorem flushed (hc : m.collectors[k]? = some c) (d : NamedCollector × Nat) (s : State) :
    Replay m k c s (flushLog m d s) (flush m d s).state := by
  unfold flushLog flush
  have hflushed : Replay m k c s [.flushed d.2 (s.gathered.getD d.2 [])] s := of_eq rfl rfl
  cases d.1.collector.flush (s.gathered.getD d.2 []) with
  | none => exact hflushed
  | some v =>
      have hemitted : Replay m k c s [.emitted d.2 v] s := of_eq rfl rfl
      exact hflushed.append
        (hemitted.append (emitted (dispatched hc Refusal.maxDepth) d.1.name v s))

end Replay

end Morph
end Recast
