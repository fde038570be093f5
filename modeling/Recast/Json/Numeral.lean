import Recast.Json.Value

/-!
# Numeral — number literals and the numbers they stand for

A `Numeral` is a number literal taken apart: sign, digits before and after the point, exponent.
`Numeral.value?` is the number it stands for.

A whole number that fits 64 bits stays exact.  Every other literal becomes a binary64 number in
two roundings: the leading digits are gathered while they fit 64 bits, the others only move the
decimal point; the gathered significand is then multiplied with, or divided by, a power of ten.
A literal beyond the largest finite number has no value.
-/

namespace Recast

structure Numeral where
  negative : Bool
  /-- The digits before the point. -/
  whole : List Char
  /-- The digits after the point, if there is one. -/
  fraction : Option (List Char)
  /-- Whether the exponent is negative, and its digits. -/
  exponent : Option (Bool × List Char)
  deriving DecidableEq, Repr

namespace Numeral

def digit (c : Char) : Nat :=
  c.toNat - '0'.toNat

def largest : Nat := 0xFFFFFFFFFFFFFFFF

/-- Gather digits into a significand while it fits 64 bits; the second part is what is left. -/
def gather (n : Nat) : List Char → Nat × List Char
  | [] => (n, [])
  | c :: rest => if n * 10 + digit c ≤ largest then gather (n * 10 + digit c) rest else (n, c :: rest)

/-- The exponent written in the literal: `none` beyond 31 bits. -/
def writtenExponent? (ds : List Char) : Option Nat :=
  let n := ds.foldl (fun n c => if n < 0x80000000 then n * 10 + digit c else n) 0
  if n < 0x80000000 then some n else none

/-- Keep an exponent within 32 bits. -/
def clampExponent (e : Int) : Int :=
  max (-0x80000000) (min e 0x7FFFFFFF)

/-- Divide by `10 ^ n`, in steps of at most `10 ^ 308`. -/
def scaleDown (f : Float) (n : Nat) : Float :=
  if n ≤ 308 then f / Float.ofScientific 1 false n
  else if f == 0 then f
  else scaleDown (f / Float.ofScientific 1 false 308) (n - 308)
termination_by n

/-- The binary64 number `significand * 10 ^ exponent`, unless it is too large. -/
def scale? (significand : Nat) (exponent : Int) : Option Float :=
  let f := Float.ofNat significand
  if exponent < 0 then some (scaleDown f exponent.natAbs)
  else if 308 < exponent then (if f == 0 then some f else none)
  else
    let g := f * Float.ofScientific 1 false exponent.natAbs
    if g.isInf then none else some g

def float? (x : Numeral) : Option Float :=
  let (leading, dropped) := gather 0 x.whole
  let (significand, unused) := gather leading (x.fraction.getD [])
  let places := (x.fraction.getD []).length - unused.length
  let start : Int := (dropped.length : Int) - places
  let magnitude := match x.exponent with
    | none => scale? significand start
    | some (down, ds) =>
        match writtenExponent? ds with
        | some e => scale? significand (clampExponent (if down then start - e else start + e))
        | none => if significand = 0 || down then some 0 else none
  magnitude.map fun f => if x.negative then -f else f

def value? (x : Numeral) : Option Number :=
  let float := x.float?.map fun f => Number.float f.toBits
  match x.fraction, x.exponent with
  | none, none =>
      let n := x.whole.foldl (fun n c => n * 10 + digit c) 0
      if !x.negative && n ≤ largest then some (.integer n)
      else if x.negative && 0 < n && n ≤ 0x8000000000000000 then some (.integer (-(n : Int)))
      else float
  | _, _ => float

def ofInt (n : Int) : Numeral :=
  ⟨n < 0, Nat.toDigits 10 n.natAbs, none, none⟩

end Numeral
end Recast
