/-!
# Run — evenly spaced code points

Tables of Unicode properties list *runs*: a first and a last code point and the step between
neighbours.  A *shift* is a run together with the image of its first code point; the images of the
others keep their distance from it.
-/

namespace Recast
namespace Unicode

structure Run where
  first : Nat
  last : Nat
  step : Nat

structure Shift extends Run where
  /-- The image of the first code point. -/
  image : Nat

def Run.holds (r : Run) (n : Nat) : Bool :=
  r.first ≤ n && n ≤ r.last && (n - r.first) % r.step == 0

def holds (rs : List Run) (n : Nat) : Bool :=
  rs.any fun r => r.holds n

/-- The image of a code point under some shifts, if one of them holds it. -/
def shift? : List Shift → Nat → Option Nat
  | [], _ => none
  | s :: rest, n => if s.holds n then some (s.image + (n - s.first)) else shift? rest n

/-- The code points of a run, one range each unless they follow each other. -/
def Run.ranges (r : Run) : List (Nat × Nat) :=
  if r.step = 1 then [(r.first, r.last)]
  else
    (List.range ((r.last - r.first) / r.step + 1)).map fun i =>
      (r.first + i * r.step, r.first + i * r.step)

end Unicode
end Recast
