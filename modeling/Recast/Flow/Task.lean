import Recast.Flow.Basic

/-!
# Task — flows at work

A task applies a flow to a document and writes the model to a sink.  `Task.runWith` runs one task in
front of anything that takes models, `Task.run` in front of a sink; `Task.runAll` runs tasks one
after the other, whatever becomes of those before.  What happens on the way is told by events: the
start of a task, what has been counted in it, and its end.
-/

namespace Recast

/-- A document and what is to be done with it. -/
structure Task where
  id : String
  flow : Flow
  input : String

namespace Task

/-- What a finished task has made. -/
structure Report where
  task : String
  records : Nat
  statements : Nat
  deriving DecidableEq, Repr

def Report.ofModel (task : String) (m : Model) : Report :=
  ⟨task, m.records.size, m.size⟩

/-- The word that a task has finished, with the milliseconds it took, as JSON. -/
def Report.toJson (r : Report) (elapsed : Nat) : Json :=
  .object [("event", .string "task_finished"), ("task", .string r.task),
    ("records", .number (.integer r.records)), ("statements", .number (.integer r.statements)),
    ("elapsed_ms", .number (.integer elapsed))]

/-- What happens while tasks run. -/
inductive Notice where
  | started (task : String)
  | timing (counted : Timing)
  | finished (report : Report)
  | failed (task : String) (cause : FlowError)
  deriving DecidableEq, Repr

/-- What a task gives that has not failed. -/
structure Output where
  task : String
  model : Model
  deriving DecidableEq

/-- What comes of a task whose flow has made a model, by the answer to it. -/
def conclude (t : Task) (m : Model) (answer : Except StorageError Unit) : Except FlowError Output :=
  match answer with
  | .ok () => .ok ⟨t.id, m⟩
  | .error e => .error (.storage e)

def closing (t : Task) : Except FlowError Output → Notice
  | .ok out => .finished (.ofModel t.id out.model)
  | .error e => .failed t.id e

/-- What becomes of a task. -/
structure Done (σ : Type u) where
  notices : List Notice
  result : Except FlowError Output
  /-- What the models are written to. -/
  state : σ

/-- Run a task in front of anything that takes models. -/
def runWith (t : Task) (sink : Service σ) (state : σ) : Done σ :=
  let applied := t.flow.apply t.input
  let begun := .started t.id :: applied.timings.map .timing
  match applied.result with
  | .error e => ⟨begun ++ [t.closing (.error e)], .error e, state⟩
  | .ok m =>
      let (answer, state) := sink.write m state
      let result := t.conclude m answer
      ⟨begun ++ [t.closing result], result, state⟩

def run (t : Task) (sink : Sink) (db : Store) : Done Store :=
  t.runWith sink.service db

structure AllDone where
  notices : List Notice
  /-- The results in the order of the tasks. -/
  results : List (Except FlowError Model)
  store : Store

/-- Run tasks one after the other. -/
def runAll (sink : Sink) : List Task → Store → AllDone
  | [], db => ⟨[], [], db⟩
  | t :: rest, db =>
      let first := t.run sink db
      let others := runAll sink rest first.state
      ⟨first.notices ++ others.notices, first.result.map Output.model :: others.results,
        others.store⟩

end Task
end Recast
