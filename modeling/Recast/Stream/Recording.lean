import Recast.Stream.Event

/-!
# Recording — events kept for later

A recording keeps the events of a stream in their order, and whether the stream was closed.  Playing
it again hands on the events alone.
-/

namespace Recast

/-- The events of a stream. -/
structure Recording where
  events : List Event
  closed : Bool
  deriving DecidableEq

namespace Recording

def empty : Recording := ⟨[], false⟩

def keep (r : Recording) (e : Event) : Recording :=
  { r with events := r.events ++ [e] }

def close (r : Recording) : Recording :=
  { r with closed := true }

def clear (r : Recording) : Recording :=
  { r with events := [] }

def playInto (r target : Recording) : Recording :=
  r.events.foldl keep target

end Recording
end Recast
