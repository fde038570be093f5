import Recast.Json.Numeral
import Recast.Text.Count
import Recast.Text.Parts
import Recast.Toml.Value

/-!
# Word — values without quotes

Truth values, numbers and moments are written without quotes.  Underscores may stand between two
digits of a number.  A whole number has to fit 64 bits, and a floating-point number must not be too
large for binary64.
-/

namespace Recast
namespace Toml

/-- The digits of a number without the underscores between them. -/
def digits? (isDigit : Char → Bool) (cs : List Char) : Option (List Char) :=
  let groups := Text.split '_' cs
  if groups.all fun g => !g.isEmpty && g.all isDigit then some groups.flatten else none

/-- Decimal digits, the first of them no zero unless it is the only one. -/
def wholeDigits? (cs : List Char) : Option (List Char) := do
  let ds ← digits? Char.isDigit cs
  if ds.length = 1 ∨ ds.head? ≠ some '0' then return ds else none

/-- The sign in front of a number, if there is one; `true` for a minus. -/
def sign : List Char → Bool × List Char
  | '-' :: rest => (true, rest)
  | '+' :: rest => (false, rest)
  | cs => (false, cs)

def ofDigits (base : Nat) (ds : List Char) : Nat :=
  ds.foldl (fun n c => n * base + (Text.hexDigit? c).getD 0) 0

def isDigitIn (base : Nat) (c : Char) : Bool :=
  match Text.hexDigit? c with
  | some d => d < base
  | none => false

/-- Read a whole number without regard to its size. -/
def anyInteger? (cs : List Char) : Option Int :=
  let based := fun (base : Nat) ds => (digits? (isDigitIn base) ds).map fun ds => (ofDigits base ds : Int)
  match cs with
  | '0' :: 'x' :: ds => based 16 ds
  | '0' :: 'o' :: ds => based 8 ds
  | '0' :: 'b' :: ds => based 2 ds
  | _ =>
      let (negative, ds) := sign cs
      (wholeDigits? ds).map fun ds =>
        if negative then -(ofDigits 10 ds : Int) else (ofDigits 10 ds : Int)

/-- Whether a whole number fits 64 bits. -/
def fits (n : Int) : Bool :=
  -0x8000000000000000 ≤ n && n < 0x8000000000000000

/-- The exponent of a number: whether it is negative, and its digits. -/
def exponent? (cs : List Char) : Option (Bool × List Char) :=
  let (negative, ds) := sign cs
  (digits? Char.isDigit ds).map fun ds => (negative, ds)

/-- Read a number with a fraction, an exponent or both. -/
def numeral? (cs : List Char) : Option Numeral := do
  let (negative, cs) := sign cs
  let isMark := fun c => c = 'e' || c = 'E'
  let mantissa := cs.takeWhile fun c => !isMark c
  let whole ← wholeDigits? (mantissa.takeWhile (· ≠ '.'))
  let fraction ← match mantissa.dropWhile (· ≠ '.') with
    | [] => some none
    | _ :: ds => (digits? Char.isDigit ds).map some
  let exponent ← match cs.dropWhile fun c => !isMark c with
    | [] => some none
    | _ :: ds => (exponent? ds).map some
  if fraction.isNone && exponent.isNone then none
  else return ⟨negative, whole, fraction, exponent⟩

/-- Read infinity or what is no number, by its bit pattern. -/
def special? (cs : List Char) : Option UInt64 :=
  let (negative, name) := sign cs
  let signBit := if negative then 0x8000000000000000 else 0
  match name with
  | ['i', 'n', 'f'] => some (signBit + 0x7FF0000000000000)
  | ['n', 'a', 'n'] => some (signBit + 0x7FF8000000000000)
  | _ => none

def isWordChar (c : Char) : Bool :=
  c.isAlphanum || c = '_' || c = '-' || c = '+' || c = '.' || c = ':'

def word? (cs : List Char) : Option Toml :=
  if cs = ['t', 'r', 'u', 'e'] then some (.boolean true)
  else if cs = ['f', 'a', 'l', 's', 'e'] then some (.boolean false)
  else match special? cs with
    | some bits => some (.float bits)
    | none =>
        match anyInteger? cs with
        | some n => if fits n then some (.integer n) else none
        | none =>
            match numeral? cs with
            | some x => x.float?.map fun f => .float f.toBits
            | none => (Moment.ofChars? cs).map .moment

/-- The word at the start of a text; a date and a time may have a blank between them. -/
def cutWord (cs : List Char) : List Char × List Char :=
  let word := cs.takeWhile isWordChar
  match cs.dropWhile isWordChar with
  | ' ' :: d :: rest =>
      if d.isDigit && (Moment.date? word matches some (_, [])) then
        (word ++ ' ' :: (d :: rest).takeWhile isWordChar, (d :: rest).dropWhile isWordChar)
      else (word, ' ' :: d :: rest)
  | rest => (word, rest)

end Toml
end Recast
