import Recast.Store.Basic
import Recast.Time.Duration

/-!
# Sink — where models go

A sink takes whole models: into a table of a store, or into nothing.  A sink that cannot take a
model says why; `StorageError.isRetryable` tells whether another try may have more success.

A `Service` is anything that takes models, with a state of its own; `Sink.service` makes one of a
sink and its store.
-/

namespace Recast

inductive StorageError where
  | rejected (reason : String)
  | unavailable (reason : String)
  | timeout (after : Duration)
  | serialization (reason : String)
  | other (reason : String)
  deriving DecidableEq, Repr

namespace StorageError

def message : StorageError → String
  | .rejected m => s!"Write rejected: {m}"
  | .unavailable m => s!"Store unavailable: {m}"
  | .timeout d => s!"Timeout after {d.text}"
  | .serialization m => s!"Serialization error: {m}"
  | .other m => s!"Storage error: {m}"

def category : StorageError → String
  | .rejected _ => "rejected"
  | .unavailable _ => "unavailable"
  | .timeout _ => "timeout"
  | .serialization _ => "serialization"
  | .other _ => "other"

/-- Whether another try may have more success. -/
def isRetryable : StorageError → Bool
  | .unavailable _ | .timeout _ => true
  | _ => false

end StorageError

/-- Where models go. -/
inductive Sink where
  /-- Models are dropped. -/
  | discard
  /-- Models are put into a table. -/
  | table (key : StoreKey)
  /-- No model is taken. -/
  | refusing (cause : StorageError)
  deriving DecidableEq, Repr

namespace Sink

def name : Sink → String
  | .discard => "discard"
  | .table _ => "memorydb"
  | .refusing _ => "refusing"

def write (s : Sink) (m : Model) (db : Store) : Except StorageError Store :=
  match s with
  | .discard => .ok db
  | .table key => .ok (db.putModel key m).2
  | .refusing cause => .error cause

end Sink

/-- Anything that takes models: its answer to one, and its state behind it. -/
structure Service (σ : Type u) where
  write : Model → σ → Except StorageError Unit × σ

/-- A sink at its store, which stays as it is where a model is not taken. -/
def Sink.service (s : Sink) : Service Store where
  write m db :=
    match s.write m db with
    | .ok db => (.ok (), db)
    | .error e => (.error e, db)

end Recast
