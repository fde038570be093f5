/-!
# Shortest — the shortest decimal that reads back as a given binary number

A finite binary64 number is `m * 2 ^ e`.  All reals between its two half-way points round to it,
the half-way points themselves exactly when `m` is even.  `shortest` looks for the coarsest
decimal grid that has a point in this interval and returns the nearest such point.

* `Binary.ofBits` — the significand and exponent of a bit pattern;
* `Binary.hit?` — the point of one decimal grid that lies in the interval, if there is one;
* `Binary.shortest` — the point of the coarsest grid that is hit.
-/

namespace Recast

/-- The decimal number `digits * 10 ^ exponent`. -/
structure Decimal where
  digits : Nat
  exponent : Int
  deriving DecidableEq, Repr

/-- The magnitude `significand * 2 ^ exponent` of a binary64 number; `narrow` says that the number
below it is only half as far away as the number above it. -/
structure Binary where
  significand : Nat
  exponent : Int
  narrow : Bool
  deriving DecidableEq, Repr

namespace Binary

/-- Read the magnitude from a bit pattern: subnormal numbers have no hidden bit. -/
def ofBits (bits : UInt64) : Binary :=
  let fraction := bits.toNat % 0x10000000000000
  let biased : Nat := bits.toNat / 0x10000000000000 % 0x800
  if biased = 0 then ⟨fraction, -1074, false⟩
  else ⟨fraction + 0x10000000000000, (biased : Int) - 1075, fraction = 0 && 1 < biased⟩

/-- The multiple of `10 ^ p` that rounds to the number, the nearer one if two neighbours do.
Both sides are scaled to whole numbers: a quarter of the last binary place is `low`. -/
def hit? (b : Binary) (p : Int) : Option Nat :=
  let quarter := b.exponent - 2
  let low := Nat.pow 2 quarter.toNat * Nat.pow 10 (-p).toNat
  let unit := Nat.pow 10 p.toNat * Nat.pow 2 (-quarter).toNat
  let value := 4 * b.significand * low
  let bottom := value - (if b.narrow then 1 else 2) * low
  let top := value + 2 * low
  let inside := fun (c : Nat) =>
    c != 0 && (if b.significand % 2 = 0 then bottom ≤ c * unit && c * unit ≤ top
      else bottom < c * unit && c * unit < top)
  let below := value / unit
  let above := below + 1
  -- of two points at the same distance the lower one is taken
  if inside below && (!inside above || 2 * value ≤ (below + above) * unit) then some below
  else if inside above then some above
  else none

/-- The shortest decimal that rounds to the number; of several, the nearest. -/
def shortest (b : Binary) : Decimal :=
  -- 30103 / 100000 is slightly more than the decimal logarithm of two
  let top := (b.exponent + (b.significand.log2 : Int) + 1) * 30103 / 100000 + 1
  ((List.range 24).findSome? fun (i : Nat) =>
    (b.hit? (top - i)).map fun c => (⟨c, top - i⟩ : Decimal)).getD ⟨0, 0⟩

end Binary
end Recast
