import Recast.Morph.Program
import Recast.Stream.Event

/-!
# Run — programs at work

A program receives the events of records and hands on records of flat literals.  A literal goes
under its path to every pipe that listens to it, in rule order.  What a pipe or a collector emits
under the name of a variable goes to the pipes that listen to the variable; anything else is handed
on.  At the end of a record the collectors emit what they hold, in rule order.  At its start and at
its end everything is cleared.

* `Morph.State` — what is remembered of a record;
* `Morph.reset` — the functions and collectors cleared in their places;
* `Morph.dispatch` — a value under a path;
* `Morph.step` — an event.
-/

namespace Recast
namespace Morph

/-- What is remembered of a record. -/
structure State where
  /-- The memories of the functions of each pipe. -/
  memories : List (List Function.Memory)
  /-- What each collector has received. -/
  gathered : List Collector.Memory
  /-- The open entities, outer ones first. -/
  entities : List String
  deriving DecidableEq

def initial (m : Morph) : State :=
  ⟨m.pipes.map fun p => p.functions.map fun _ => .fresh, m.collectors.map fun _ => [], []⟩

def resetAll : List Function → List Function.Memory → List Function.Memory
  | [], _ => []
  | f :: fs, ms => f.reset (ms.headD .fresh) :: resetAll fs ms.tail

def reset (m : Morph) (s : State) : State :=
  ⟨m.pipes.zipIdx.map fun p => resetAll p.1.functions (s.memories.getD p.2 []),
    m.collectors.zipIdx.map fun c => c.1.collector.reset (s.gathered.getD c.2 []), []⟩

/-! ## Values -/

/-- Pass a value through functions: what becomes of it, and what they remember. -/
def applyAll : List Function → List Function.Memory → String →
    Option String × List Function.Memory
  | [], ms, value => (some value, ms)
  | f :: fs, ms, value =>
      match f.apply (ms.headD .fresh) value with
      -- the functions behind have not seen the value
      | (none, m) => (none, m :: ms.tail)
      | (some next, m) =>
          let (result, ms') := applyAll fs ms.tail next
          (result, m :: ms')

def passPipe (p : Pipe) (ms : List Function.Memory) (value : String) :
    Option String × List Function.Memory :=
  match p.filter with
  | some f => if f.passes value then applyAll p.functions ms value else (none, ms)
  | none => applyAll p.functions ms value

/-- The pipes that listen to a path, with their places. -/
def listeners (m : Morph) (path : String) : List (Pipe × Nat) :=
  (m.index.places path).filterMap fun place => m.pipes[place]?.map fun p => (p, place)

/-- Hand a value to where the pipe at a place sends it; `emit` takes what goes out under a name. -/
def runPipe (m : Morph) (emit : String → String → State → Outcome State) (value : String)
    (p : Pipe × Nat) (s : State) : Outcome State :=
  match passPipe p.1 (s.memories.getD p.2 []) value with
  | (none, ms) => .quiet { s with memories := s.memories.set p.2 ms }
  | (some v, ms) =>
      -- the memories change before the value can come back as that of a variable
      let s := { s with memories := s.memories.set p.2 ms }
      match p.1.output with
      | .emit name => emit name v s
      | .gather place input =>
          match m.collectors[place]? with
          | none => .quiet s
          | some c =>
              let (out, held) := c.collector.receive (s.gathered.getD place []) input v
              let s := { s with gathered := s.gathered.set place held }
              match out with
              | some w => emit c.name w s
              | none => .quiet s

/-- A value that goes out under a name: to the pipes that listen if the name is that of a variable,
and out of the program if not. -/
def emitTo (dispatch : String → String → State → Outcome State) (name value : String) (s : State) :
    Outcome State :=
  if Script.isVariable name then dispatch name value s else .hand s (.literal name value)

/-- Hand a value to all pipes that listen to a path; variables may feed variables `levels` times,
less one. -/
def dispatch (m : Morph) : Nat → String → String → State → Outcome State
  | 0, path, _, s => .refuse s (.tooDeep path)
  | levels + 1, path, value, s =>
      Outcome.each (runPipe m (emitTo (dispatch m levels)) value) (m.listeners path) s

/-! ## Events -/

/-- Emit what the collector at a place holds at the end of a record. -/
def flush (m : Morph) (c : NamedCollector × Nat) (s : State) : Outcome State :=
  match c.1.collector.flush (s.gathered.getD c.2 []) with
  | some v => emitTo (dispatch m Refusal.maxDepth) c.1.name v s
  | none => .quiet s

def step (m : Morph) (e : Event) (s : State) : Outcome State :=
  match e with
  | .startRecord id => .hand (m.reset s) (.startRecord id)
  | .endRecord =>
      -- what the collectors emit still meets the memories of the record
      (Outcome.each (flush m) m.collectors.zipIdx s).andThen fun t => .hand (m.reset t) .endRecord
  | .startEntity name => .quiet { s with entities := s.entities ++ [name] }
  | .endEntity =>
      if s.entities.isEmpty then .refuse s .noEntity
      else .quiet { s with entities := s.entities.dropLast }
  | .literal name value =>
      dispatch m (Refusal.maxDepth + 1) (Source.path s.entities name) value s

def run (m : Morph) (es : List Event) : Outcome State :=
  Outcome.each m.step es m.initial

end Morph
end Recast
