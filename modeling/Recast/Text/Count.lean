/-!
# Count — whole numbers from text

A count is written in decimal digits, with a plus sign in front if one likes.  `Count.read` gives
its value or says what is wrong with the text; of several faults it names the leftmost.
-/

namespace Recast

inductive CountError where
  | empty
  | invalidDigit
  | tooLarge
  deriving DecidableEq, Repr

def CountError.message : CountError → String
  | .empty => "cannot parse integer from empty string"
  | .invalidDigit => "invalid digit found in string"
  | .tooLarge => "number too large to fit in target type"

def Text.hexDigit? (c : Char) : Option Nat :=
  if c.isDigit then some (c.toNat - '0'.toNat)
  else if 'a' ≤ c && c ≤ 'f' then some (c.toNat - 'a'.toNat + 10)
  else if 'A' ≤ c && c ≤ 'F' then some (c.toNat - 'A'.toNat + 10)
  else none

namespace Count

def max64 : Nat := 0xFFFFFFFFFFFFFFFF

def max32 : Nat := 0xFFFFFFFF

/-- Read digits behind those that have given `n`. -/
def readDigits (limit n : Nat) : List Char → Except CountError Nat
  | [] => .ok n
  | c :: rest =>
      if !c.isDigit then .error .invalidDigit
      else
        let m := n * 10 + (c.toNat - '0'.toNat)
        if limit < m then .error .tooLarge else readDigits limit m rest

/-- Read a count up to a limit. -/
def read (limit : Nat) : List Char → Except CountError Nat
  | [] => .error .empty
  | ['+'] => .error .invalidDigit
  | '+' :: rest => readDigits limit 0 rest
  | cs => readDigits limit 0 cs

end Count
end Recast
