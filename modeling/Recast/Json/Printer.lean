import Recast.Json.Token
import Recast.Decimal.Shortest

/-!
# Printer — JSON text of values

* `Json.compact` — a value on one line without blanks;
* `Json.pretty` — a value over several lines, each level indented by two blanks; empty arrays and
  objects stay on one line.

A binary64 number is written with the fewest digits that read back: positional from `1e-5` up to
below `1e16`, with at least one digit after the point, and with an exponent elsewhere.
-/

namespace Recast

namespace Number

def digits (n : Nat) : List Char :=
  Nat.toDigits 10 n

/-- A decimal number with its point after the first `point` digits, or with an exponent. -/
def decimalChars (d : Decimal) : List Char :=
  let ds := digits d.digits
  let scientific : Int := d.exponent + (ds.length : Int) - 1
  if -5 ≤ scientific && scientific < 16 then
    if 0 ≤ d.exponent then ds ++ List.replicate d.exponent.toNat '0' ++ ['.', '0']
    else
      let places := (-d.exponent).toNat
      if places < ds.length then
        ds.take (ds.length - places) ++ '.' :: ds.drop (ds.length - places)
      else ['0', '.'] ++ List.replicate (places - ds.length) '0' ++ ds
  else
    let tail := match ds with
      | [] => []
      | [c] => [c]
      | c :: rest => c :: '.' :: rest
    tail ++ ['e', if scientific < 0 then '-' else '+'] ++ digits scientific.natAbs

def chars : Number → List Char
  | .integer n => (if n < 0 then ['-'] else []) ++ digits n.natAbs
  | .float bits =>
      (if 0x8000000000000000 ≤ bits.toNat then ['-'] else []) ++
        -- zero has no shortest decimal: its sign is all that is left of it
        (if bits.toNat % 0x8000000000000000 = 0 then ['0', '.', '0']
         else decimalChars (Binary.ofBits bits).shortest)

end Number

namespace Json

/-! ## On one line -/

mutual
def chars : Json → List Char
  | .null => ['n', 'u', 'l', 'l']
  | .bool true => ['t', 'r', 'u', 'e']
  | .bool false => ['f', 'a', 'l', 's', 'e']
  | .number n => n.chars
  | .string s => quoted s.toList
  | .array items => '[' :: itemsChars items ++ [']']
  | .object members => '{' :: membersChars members ++ ['}']

def itemsChars : List Json → List Char
  | [] => []
  | [v] => chars v
  | v :: rest => chars v ++ ',' :: itemsChars rest

def membersChars : List (String × Json) → List Char
  | [] => []
  | [m] => memberChars m
  | m :: rest => memberChars m ++ ',' :: membersChars rest

def memberChars : String × Json → List Char
  | (k, v) => quoted k.toList ++ ':' :: chars v
end

def compact (v : Json) : String :=
  String.ofList v.chars

/-! ## Over several lines -/

def newline (level : Nat) : List Char :=
  '\n' :: List.replicate (2 * level) ' '

mutual
/-- The characters of a value whose first line starts at the given level. -/
def indented (level : Nat) : Json → List Char
  | .array (v :: rest) =>
      '[' :: indentedItems (level + 1) (v :: rest) ++ newline level ++ [']']
  | .object (m :: rest) =>
      '{' :: indentedMembers (level + 1) (m :: rest) ++ newline level ++ ['}']
  | .array [] => ['[', ']']
  | .object [] => ['{', '}']
  | .null => chars .null
  | .bool b => chars (.bool b)
  | .number n => chars (.number n)
  | .string s => chars (.string s)

/-- The characters of items, each on a line of its own. -/
def indentedItems (level : Nat) : List Json → List Char
  | [] => []
  | [v] => newline level ++ indented level v
  | v :: rest => newline level ++ indented level v ++ ',' :: indentedItems level rest

def indentedMembers (level : Nat) : List (String × Json) → List Char
  | [] => []
  | [m] => newline level ++ indentedMember level m
  | m :: rest => newline level ++ indentedMember level m ++ ',' :: indentedMembers level rest

def indentedMember (level : Nat) : String × Json → List Char
  | (k, v) => quoted k.toList ++ ':' :: ' ' :: indented level v
end

/-- The text of a value over several lines. -/
def pretty (v : Json) : String :=
  String.ofList (v.indented 0)

end Json
end Recast
