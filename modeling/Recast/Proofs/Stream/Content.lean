import Recast.Stream.Event

/-!
# Content — whole records

What stands in a record is a tree: literals, and entities that hold content of their own.  A whole
record is an id with such a content; its events start the record, open and close every entity in
turn, and end the record.  Of events in any order an entity is open from its start to its end.

* `WholeRecord`, `Content` — records with what stands in them;
* `Event.nested` — the entities that are open behind some events;
* `Event.heard` — the literals among events, each with the entities that are open when it comes.
-/

namespace Recast

/-- What stands in a record or in an entity, in order. -/
inductive Content where
  | done
  | literal (name value : String) (rest : Content)
  | entity (name : String) (inner rest : Content)
  deriving DecidableEq, Repr

namespace Content

/-- The events of a content: every entity that starts in it ends in it. -/
def events : Content → List Event
  | done => []
  | literal name value rest => .literal name value :: rest.events
  | entity name inner rest => .startEntity name :: (inner.events ++ .endEntity :: rest.events)

def literals (around : List String) : Content → List (List String × String × String)
  | done => []
  | literal name value rest => (around, name, value) :: literals around rest
  | entity name inner rest => literals (around ++ [name]) inner ++ literals around rest

end Content

/-- A whole record. -/
structure WholeRecord where
  id : String
  content : Content
  deriving DecidableEq, Repr

namespace WholeRecord

def events (r : WholeRecord) : List Event :=
  .startRecord r.id :: (r.content.events ++ [.endRecord])

end WholeRecord

/-! ## The entities around events -/
namespace Event

/-- The entities that an event leaves open, outer ones first. -/
def nest (around : List String) : Event → List String
  | .startRecord _ => []
  | .endRecord => []
  | .startEntity name => around ++ [name]
  | .endEntity => around.dropLast
  | .literal _ _ => around

/-- The entities that are open behind some events. -/
def nested (around : List String) (es : List Event) : List String :=
  es.foldl nest around

/-- The literals among events, each with the entities that are open when it comes. -/
def heard (around : List String) : List Event → List (List String × String × String)
  | [] => []
  | .literal name value :: rest => (around, name, value) :: heard around rest
  | e :: rest => heard (e.nest around) rest

end Event

end Recast
