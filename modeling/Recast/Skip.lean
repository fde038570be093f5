import Recast.Pattern.Matcher
import Recast.Stream.Event
import Recast.Text.Parts

/-!
# Skip — events that are left out

Rules say which parts of a stream are left out: entities by name, literals by path, and whole
records by the path and value of a literal in them.  As long as there are rules for whole records,
the events of a record are held back until it ends.

* `SkipRules` — the rules;
* `SkipRules.step` — an event.
-/

namespace Recast

/-- What is left out of a stream. -/
structure SkipRules where
  /-- The names of entities, which are left out with all they hold. -/
  entities : List String
  /-- The paths of literals. -/
  literals : List Pattern
  /-- Paths and values of literals whose whole record is left out. -/
  records : List (Pattern × Pattern)

namespace SkipRules

def none : SkipRules := ⟨[], [], []⟩

def isEmpty (r : SkipRules) : Bool :=
  r.entities.isEmpty && r.literals.isEmpty && r.records.isEmpty

/-- Whether records are held back until they end. -/
def holdsBack (r : SkipRules) : Bool :=
  !r.records.isEmpty

/-- What is remembered of a record. -/
structure State where
  /-- The open entities, outer ones first. -/
  path : List String
  /-- The number of open entities that are left out. -/
  depth : Nat
  /-- The events that are held back. -/
  held : List Event
  /-- Whether the record is to be left out. -/
  dropping : Bool
  /-- The number of records left out so far. -/
  dropped : Nat
  deriving DecidableEq

def initial : State := ⟨[], 0, [], false, 0⟩

/-- Hand an event on, or hold it back. -/
def forward (r : SkipRules) (e : Event) (s : State) : Outcome State :=
  if r.holdsBack then .quiet { s with held := s.held ++ [e] } else .hand s e

def pathOf (entities : List String) (name : String) : String :=
  let outer := Text.glue "." entities
  if outer = "" then name else outer ++ "." ++ name

/-- Whether a literal is the reason for leaving out its record. -/
def dropsRecord (r : SkipRules) (path value : String) : Bool :=
  r.records.any fun rule => rule.1.matches path && rule.2.matches value

def dropsLiteral (r : SkipRules) (path : String) : Bool :=
  r.literals.any fun p => p.matches path

def step (r : SkipRules) (e : Event) (s : State) : Outcome State :=
  match e with
  | .startRecord id => r.forward (.startRecord id) ⟨[], 0, [], false, s.dropped⟩
  | .endRecord =>
      if !r.holdsBack then .hand s .endRecord
      else if s.dropping then .quiet { s with held := [], dropped := s.dropped + 1 }
      -- the record has been kept: all of it goes out at once
      else ⟨{ s with held := [] }, s.held ++ [.endRecord], Option.none⟩
  | .startEntity name =>
      if 0 < s.depth || r.entities.contains name then .quiet { s with depth := s.depth + 1 }
      else r.forward (.startEntity name) { s with path := s.path ++ [name] }
  | .endEntity =>
      if 0 < s.depth then .quiet { s with depth := s.depth - 1 }
      else r.forward .endEntity { s with path := s.path.dropLast }
  | .literal name value =>
      if 0 < s.depth then .quiet s
      else
        let path := pathOf s.path name
        -- a literal that is left out can still be the reason for leaving out its record
        let s := { s with dropping := s.dropping || r.dropsRecord path value }
        if r.dropsLiteral path then .quiet s else r.forward (.literal name value) s

def run (r : SkipRules) (es : List Event) : Outcome State :=
  Outcome.each r.step es initial

end SkipRules
end Recast
