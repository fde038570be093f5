import Recast.Flow.Task

/-!
# Runner — tasks side by side

A runner has several tasks at work at once.  Each goes its own way, from a permit to its last word,
and the ways are interleaved in any order; what they share is the permits, the sink and the word of
what happens.  A flow always comes to an end here, so no task is lost on its way, and the permits
are never withdrawn.

* `Task.move` — what a task does next;
* `Runner.advance` — one step of one task, if it can be taken;
* `Runner.follow` — the steps of tasks in the order of a schedule;
* `Runner.State.results?` — the results of the tasks, in their order, when all have ended.
-/

namespace Recast

/-! ## Permits -/

/-- Permits to be at work. -/
structure Semaphore where
  available : Nat
  deriving DecidableEq, Repr

namespace Semaphore

def acquire? : Semaphore → Option Semaphore
  | ⟨0⟩ => none
  | ⟨n + 1⟩ => some ⟨n⟩

def release (s : Semaphore) : Semaphore := ⟨s.available + 1⟩

end Semaphore

/-! ## The way of a task -/

namespace Task

/-- How far a task has come. -/
inductive Phase where
  /-- It waits for a permit. -/
  | waiting
  /-- It has got its permit. -/
  | admitted
  /-- It has told its start. -/
  | started
  /-- Its flow is through; some counts are still to be told. -/
  | applied (untold : List Timing) (made : Except FlowError Model)
  /-- It is known what comes of it. -/
  | settled (result : Except FlowError Output)
  /-- It has said its last word. -/
  | told (result : Except FlowError Output)
  /-- It has given its permit back. -/
  | ended (result : Except FlowError Output)

def Phase.result? : Phase → Option (Except FlowError Output)
  | .ended result => some result
  | _ => none

/-- What a task does next, and how far it has come then. -/
inductive Move where
  | acquire (next : Phase)
  | publish (notice : Notice) (next : Phase)
  | work (next : Phase)
  | write (m : Model) (next : Except StorageError Unit → Phase)
  | release (next : Phase)

/-- What a task does next; the sink hears of it only if its flow has made a model. -/
def move (t : Task) : Phase → Option Move
  | .waiting => some (.acquire .admitted)
  | .admitted => some (.publish (.started t.id) .started)
  | .started =>
      let applied := t.flow.apply t.input
      some (.work (.applied applied.timings applied.result))
  | .applied (x :: rest) made => some (.publish (.timing x) (.applied rest made))
  | .applied [] (.error e) => some (.work (.settled (.error e)))
  | .applied [] (.ok m) => some (.write m fun answer => .settled (t.conclude m answer))
  | .settled result => some (.publish (t.closing result) (.told result))
  | .told result => some (.release (.ended result))
  | .ended _ => none

/-- A model that has been written, and the answer to it. -/
structure Call where
  model : Model
  answer : Except StorageError Unit

structure Thread where
  task : Task
  phase : Phase

end Task

/-! ## Several tasks -/

/-- What runs tasks. -/
structure Runner (σ : Type u) where
  sink : Service σ
  /-- How many tasks may be at work at once; without it as many as there are. -/
  bound : Option Nat
  positive : ∀ n ∈ bound, 0 < n

namespace Runner

open Recast.Task

def new (sink : Service σ) : Runner σ := ⟨sink, none, by simp⟩

/-- Let at most some tasks be at work at once, and at least one. -/
def withMaxConcurrent (r : Runner σ) (workers : Nat) : Runner σ where
  sink := r.sink
  bound := some (max workers 1)
  positive := by
    intro n h
    cases h
    omega

/-- Tasks on their ways, with all that they share. -/
structure State (σ : Type u) where
  threads : List Thread
  permits : Option Semaphore
  /-- What the models are written to. -/
  sink : σ
  /-- What has been published, with the place of the task. -/
  notices : List (Nat × Notice)
  /-- What has been written, with the place of the task. -/
  calls : List (Nat × Call)

def start (r : Runner σ) (tasks : List Task) (sink : σ) : State σ :=
  ⟨tasks.map (⟨·, .waiting⟩), r.bound.map Semaphore.mk, sink, [], []⟩

def State.enter (s : State σ) (k : Nat) (t : Task) (p : Phase) : State σ :=
  { s with threads := s.threads.set k ⟨t, p⟩ }

/-- Do what the task at a place does next; it has to wait where no permit is left. -/
def perform (r : Runner σ) (k : Nat) (t : Task) (s : State σ) : Move → Option (State σ)
  | .acquire next =>
      match s.permits with
      | none => some (s.enter k t next)
      | some permits => permits.acquire?.map fun left =>
          { s.enter k t next with permits := some left }
  | .publish notice next => some { s.enter k t next with notices := s.notices ++ [(k, notice)] }
  | .work next => some (s.enter k t next)
  | .write m next =>
      let (answer, sink) := r.sink.write m s.sink
      some { s.enter k t (next answer) with sink := sink, calls := s.calls ++ [(k, ⟨m, answer⟩)] }
  | .release next => some { s.enter k t next with permits := s.permits.map Semaphore.release }

/-- One step of the task at a place, if it can be taken. -/
def advance (r : Runner σ) (k : Nat) (s : State σ) : Option (State σ) := do
  let thread ← s.threads[k]?
  r.perform k thread.task s (← thread.task.move thread.phase)

/-- The steps of the tasks at some places, one after the other; one that cannot be taken leaves
things as they are. -/
def follow (r : Runner σ) (schedule : List Nat) (s : State σ) : State σ :=
  schedule.foldl (fun s k => (r.advance k s).getD s) s

/-! ## Views -/

/-- What concerns one place. -/
def entriesOf (k : Nat) (log : List (Nat × α)) : List α :=
  (log.filter fun e => e.1 = k).map Prod.snd

def State.noticesOf (s : State σ) (k : Nat) : List Notice := entriesOf k s.notices

def State.callsOf (s : State σ) (k : Nat) : List Call := entriesOf k s.calls

def State.results? (s : State σ) : Option (List (Except FlowError Output)) :=
  s.threads.mapM fun thread => thread.phase.result?

end Runner
end Recast
