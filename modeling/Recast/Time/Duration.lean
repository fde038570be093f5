import Recast.Text.Count

/-!
# Duration — spans of time

A duration is a whole number of nanoseconds.  `Duration.text` writes it in the largest unit of
which there is at least one, with as many digits behind the point as it takes to be exact.
`Duration.longest` is the longest one that can be held; `Duration.part` divides seconds and
nanoseconds, and loses less than a nanosecond, `nanos_part`.
-/

namespace Recast

structure Duration where
  nanos : Nat
  deriving DecidableEq, Repr, Inhabited

namespace Duration

def perSecond : Nat := 1000000000

def ofParts (secs nanos : Nat) : Duration := ⟨secs * perSecond + nanos⟩

def secs (d : Duration) : Nat := d.nanos / perSecond

def subsec (d : Duration) : Nat := d.nanos % perSecond

/-- Seconds, and the nanoseconds behind them, make up the whole duration. -/
theorem ofParts_secs_subsec (d : Duration) : ofParts d.secs d.subsec = d := by
  unfold ofParts secs subsec
  rw [Nat.div_add_mod']

/-- The longest duration: its seconds are counted in 64 bits. -/
def longest : Duration := ofParts Count.max64 (perSecond - 1)

/-- One of `n` equal parts, rounded down to nanoseconds.  What is left of the seconds is divided
together with what is left of the nanoseconds. -/
def part (d : Duration) (n : Nat) : Duration :=
  ofParts (d.secs / n) (d.subsec / n + (d.secs % n * perSecond + d.subsec % n) / n)

/-- A part of a duration is what dividing all of its nanoseconds gives. -/
theorem nanos_part (d : Duration) {n : Nat} (hn : 0 < n) : (d.part n).nanos = d.nanos / n := by
  -- the whole quotients of both are a multiple of `n`, so only the carried rest is rounded
  have hsplit : d.nanos =
      n * (d.secs / n * perSecond + d.subsec / n) + (d.secs % n * perSecond + d.subsec % n) :=
    calc d.nanos = (ofParts d.secs d.subsec).nanos := by rw [ofParts_secs_subsec]
      _ = d.secs * perSecond + d.subsec := rfl
      _ = (n * (d.secs / n) + d.secs % n) * perSecond + (n * (d.subsec / n) + d.subsec % n) := by
        rw [Nat.div_add_mod, Nat.div_add_mod]
      _ = _ := by simp only [Nat.add_mul, Nat.mul_add, Nat.mul_assoc]; omega
  calc (d.part n).nanos
      = (d.secs / n * perSecond + d.subsec / n) + (d.secs % n * perSecond + d.subsec % n) / n :=
        (Nat.add_assoc _ _ _).symm
    _ = d.nanos / n := by rw [hsplit, Nat.mul_add_div hn]

/-- The digits of a fraction of `places` digits, without the zeros at its end. -/
def fraction : Nat → Nat → List Char
  | 0, _ => []
  | places + 1, n =>
      -- zeros at the end are not written
      if n = 0 then []
      else Char.ofNat ('0'.toNat + n / Nat.pow 10 places) :: fraction places (n % Nat.pow 10 places)

/-- A number of nanoseconds in a unit of `10 ^ places` of them. -/
def inUnit (places : Nat) (unit : String) (nanos : Nat) : String :=
  let whole := toString (nanos / Nat.pow 10 places)
  let rest := fraction places (nanos % Nat.pow 10 places)
  if rest.isEmpty then whole ++ unit else whole ++ "." ++ String.ofList rest ++ unit

def text (d : Duration) : String :=
  if 1000000000 ≤ d.nanos then inUnit 9 "s" d.nanos
  else if 1000000 ≤ d.nanos then inUnit 6 "ms" d.nanos
  else if 1000 ≤ d.nanos then inUnit 3 "µs" d.nanos
  else inUnit 0 "ns" d.nanos

end Duration
end Recast
