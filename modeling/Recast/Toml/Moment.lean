/-!
# Moment — dates and times

A moment is a date, a time of day, or both; both together may have an offset from universal time.

* `Moment.ofChars?` — read a moment;
* `Moment.text` — write one: the fraction of a second without zeros at its end.
-/

namespace Recast

structure Date where
  year : Nat
  month : Nat
  day : Nat
  deriving DecidableEq, Repr

structure Clock where
  hour : Nat
  minute : Nat
  second : Nat
  nanos : Nat
  deriving DecidableEq, Repr

/-- How far a time of day is from universal time. -/
inductive Offset where
  | universal
  /-- A number of minutes ahead. -/
  | ahead (minutes : Int)
  deriving DecidableEq, Repr

/-- A date, a time of day, or both. -/
structure Moment where
  date : Option Date
  clock : Option Clock
  offset : Option Offset
  deriving DecidableEq, Repr

namespace Moment

/-! ## Reading -/

/-- Read a number of exactly `count` digits, behind those that have given `n`. -/
def digits? (n : Nat) : Nat → List Char → Option (Nat × List Char)
  | 0, cs => some (n, cs)
  | count + 1, c :: rest =>
      if c.isDigit then digits? (n * 10 + (c.toNat - '0'.toNat)) count rest else none
  | _ + 1, [] => none

/-- Pass over a character that must be there. -/
def expect? (d : Char) : List Char → Option (List Char)
  | c :: rest => if c = d then some rest else none
  | [] => none

def daysIn (year month : Nat) : Nat :=
  if month = 2 then
    (if year % 4 = 0 ∧ (year % 100 ≠ 0 ∨ year % 400 = 0) then 29 else 28)
  else if month = 4 ∨ month = 6 ∨ month = 9 ∨ month = 11 then 30
  else 31

def date? (cs : List Char) : Option (Date × List Char) := do
  let (year, cs) ← digits? 0 4 cs
  let (month, cs) ← digits? 0 2 (← expect? '-' cs)
  let (day, cs) ← digits? 0 2 (← expect? '-' cs)
  guard (1 ≤ month ∧ month ≤ 12 ∧ 1 ≤ day ∧ day ≤ daysIn year month)
  return (⟨year, month, day⟩, cs)

/-- The nanoseconds of the digits behind the point; those beyond the ninth are dropped. -/
def nanosOf (ds : List Char) : Nat :=
  ((ds ++ List.replicate 9 '0').take 9).foldl (fun n c => n * 10 + (c.toNat - '0'.toNat)) 0

/-- Read the seconds behind hour and minute, if they are there. -/
def seconds? : List Char → Option (Nat × Nat × List Char)
  | ':' :: cs => do
      let (second, cs) ← digits? 0 2 cs
      match cs with
      | '.' :: more =>
          let ds := more.takeWhile Char.isDigit
          if ds.isEmpty then none else return (second, nanosOf ds, more.dropWhile Char.isDigit)
      | _ => return (second, 0, cs)
  | cs => some (0, 0, cs)

/-- Read a time of day; a minute may have a leap second. -/
def clock? (cs : List Char) : Option (Clock × List Char) := do
  let (hour, cs) ← digits? 0 2 cs
  let (minute, cs) ← digits? 0 2 (← expect? ':' cs)
  let (second, nanos, cs) ← seconds? cs
  guard (hour ≤ 23 ∧ minute ≤ 59 ∧ second ≤ 60)
  return (⟨hour, minute, second, nanos⟩, cs)

/-- Read an offset that ends the text. -/
def offset? : List Char → Option Offset
  | ['Z'] | ['z'] => some .universal
  | c :: cs => do
      guard (c = '+' ∨ c = '-')
      let (hours, cs) ← digits? 0 2 cs
      let (minutes, cs) ← digits? 0 2 (← expect? ':' cs)
      guard (cs.isEmpty ∧ hours ≤ 23 ∧ minutes ≤ 59)
      let n : Int := hours * 60 + minutes
      return .ahead (if c = '-' then -n else n)
  | [] => none

def ofChars? (cs : List Char) : Option Moment :=
  match date? cs with
  | some (d, []) => some ⟨some d, none, none⟩
  | some (d, c :: more) =>
      if c = 'T' ∨ c = 't' ∨ c = ' ' then
        match clock? more with
        | some (t, []) => some ⟨some d, some t, none⟩
        | some (t, rest) => (offset? rest).map fun o => ⟨some d, some t, some o⟩
        | none => none
      else none
  | none =>
      match clock? cs with
      | some (t, []) => some ⟨none, some t, none⟩
      | _ => none

/-! ## Writing -/

/-- A number with zeros in front of it, so that it has at least `width` digits. -/
def padded (width n : Nat) : List Char :=
  let ds := Nat.toDigits 10 n
  List.replicate (width - ds.length) '0' ++ ds

def dateChars (d : Date) : List Char :=
  padded 4 d.year ++ '-' :: padded 2 d.month ++ '-' :: padded 2 d.day

def clockChars (t : Clock) : List Char :=
  let fraction := ((padded 9 t.nanos).reverse.dropWhile (· = '0')).reverse
  padded 2 t.hour ++ ':' :: padded 2 t.minute ++ ':' :: padded 2 t.second ++
    (if t.nanos = 0 then [] else '.' :: fraction)

def offsetChars : Offset → List Char
  | .universal => ['Z']
  | .ahead n =>
      (if n < 0 then '-' else '+') :: padded 2 (n.natAbs / 60) ++ ':' :: padded 2 (n.natAbs % 60)

def text (m : Moment) : String :=
  let between := if m.date.isSome && m.clock.isSome then ['T'] else []
  String.ofList ((m.date.elim [] dateChars) ++ between ++ (m.clock.elim [] clockChars) ++
    m.offset.elim [] offsetChars)

end Moment
end Recast
