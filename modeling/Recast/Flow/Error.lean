import Recast.Compile.Issue
import Recast.Decoder.Basic
import Recast.Store.Sink

/-!
# Error — why a task comes to nothing

A task fails when its program cannot be built, its document cannot be decoded, an event is refused
on the way, or the model cannot be stored.  The report is that of the cause.
-/

namespace Recast

/-- Why a task comes to nothing. -/
inductive FlowError where
  | compile (cause : CompileError)
  | decode (cause : DecodeError)
  | transform (cause : Refusal)
  | storage (cause : StorageError)
  deriving DecidableEq, Repr

namespace FlowError

/-- The word for the part of the work that has failed. -/
def category : FlowError → String
  | .compile _ => "compile"
  | .decode _ => "decode"
  | .transform _ => "transform"
  | .storage _ => "storage"

def message : FlowError → String
  | .compile cause => cause.message
  | .decode cause => cause.message
  | .transform cause => cause.message
  | .storage cause => cause.message

end FlowError
end Recast
