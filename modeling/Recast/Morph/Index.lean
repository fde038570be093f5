import Recast.Morph.Source
import Recast.OrderedMap

/-!
# Index — where the rules that listen to a path are found

Rules are looked up by their places.  The plain sources stand in a map from paths to places; the
regular expressions of the starred ones are tried one after the other.  What has been found this way
is sorted, so that rules run in their order, and no place counts twice.

* `Index.ofSources` — the index of some sources;
* `Index.places` — the places of the sources that listen to a path.
-/

namespace Recast

/-- The places of sources, by their paths or with their regular expressions. -/
structure Index where
  exact : OrderedMap String (List Nat)
  patterns : List (Pattern × Nat)

namespace Index

def add (x : Index) (p : String × Nat) : Index :=
  if Source.isStarred p.1 then
    match Source.expression? p.1 with
    | some e =>
        { x with patterns := x.patterns ++ [(.ofExpression (Source.patternText p.1) e, p.2)] }
    | none => x
  else { x with exact := x.exact.put p.1 ((x.exact.get? p.1).getD [] ++ [p.2]) }

def ofSources (sources : List String) : Index :=
  sources.zipIdx.foldl add ⟨.empty, []⟩

/-- Put a place among places in ascending order. -/
def insert (place : Nat) : List Nat → List Nat
  | [] => [place]
  | i :: rest => if place ≤ i then place :: i :: rest else i :: insert place rest

/-- The places of the sources that listen to a path, in ascending order. -/
def places (x : Index) (path : String) : List Nat :=
  let found := (x.exact.get? path).getD [] ++
    (x.patterns.filter fun p => p.1.matches path).map Prod.snd
  (found.foldr insert []).eraseReps

end Index
end Recast
