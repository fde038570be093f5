import Recast.Text.Count

/-!
# Text — quoted texts of configurations

A text stands between quotation marks or between apostrophes.  Between quotation marks a backslash
starts an escape; between apostrophes every character stands for itself.  Three marks in place of one
let the text go over several lines; a line break right behind them does not count, and up to two
marks may stand in front of the closing three.

* `Toml.quoted?` — read a text in any of the four forms;
* `Toml.writeText` — write a text in the plainest form that holds it.
-/

namespace Recast
namespace Toml

def isBlank (c : Char) : Bool :=
  c = ' ' || c = '\t'

/-- The characters that stand for themselves: all but control characters, and the tab. -/
def isPlain (c : Char) : Bool :=
  c = '\t' || (0x20 ≤ c.toNat && c ≠ '\x7f')

/-- The rest behind a line break. -/
def lineBreak? : List Char → Option (List Char)
  | '\n' :: rest => some rest
  | '\r' :: '\n' :: rest => some rest
  | _ => none

/-! ## Escapes -/

/-- Read a number of exactly `count` hexadecimal digits, behind those that have given `n`. -/
def hex? (n : Nat) : Nat → List Char → Option (Nat × List Char)
  | 0, cs => some (n, cs)
  | count + 1, c :: rest => (Text.hexDigit? c).bind fun d => hex? (n * 16 + d) count rest
  | _ + 1, [] => none

/-- The character given by its code in so many digits. -/
def coded? (count : Nat) (cs : List Char) : Option (Char × List Char) :=
  match hex? 0 count cs with
  | some (n, rest) => if n.isValidChar then some (Char.ofNat n, rest) else none
  | none => none

/-- The character that is named behind a backslash. -/
def escape? : List Char → Option (Char × List Char)
  | 'b' :: rest => some ('\x08', rest)
  | 't' :: rest => some ('\t', rest)
  | 'n' :: rest => some ('\n', rest)
  | 'f' :: rest => some ('\x0c', rest)
  | 'r' :: rest => some ('\r', rest)
  | 'e' :: rest => some ('\x1b', rest)
  | '"' :: rest => some ('"', rest)
  | '\\' :: rest => some ('\\', rest)
  | 'x' :: rest => coded? 2 rest
  | 'u' :: rest => coded? 4 rest
  | 'U' :: rest => coded? 8 rest
  | _ => none

/-! ## On one line -/

/-- Read up to the closing quotation mark. -/
def basic? : List Char → Option (List Char × List Char)
  | [] => none
  | '"' :: rest => some ([], rest)
  | '\\' :: rest =>
      match escape? rest with
      | some (c, after) =>
          if _h : after.length < rest.length then
            (basic? after).map fun (cs, end_) => (c :: cs, end_)
          else none
      | none => none
  | c :: rest => if isPlain c then (basic? rest).map fun (cs, end_) => (c :: cs, end_) else none
termination_by cs => cs.length

def literal? : List Char → Option (List Char × List Char)
  | [] => none
  | '\'' :: rest => some ([], rest)
  | c :: rest => if isPlain c then (literal? rest).map fun (cs, end_) => (c :: cs, end_) else none

def lineText? : List Char → Option (List Char × List Char)
  | '"' :: rest => basic? rest
  | '\'' :: rest => literal? rest
  | _ => none

/-! ## Over several lines -/

/-- The marks at the start of a text close it if there are three of them or more: what they add to
the text, and the rest. -/
def closing? (mark : Char) (cs : List Char) : Option (List Char × List Char) :=
  let n := min 5 (cs.takeWhile (· = mark)).length
  if 3 ≤ n then some (List.replicate (n - 3) mark, cs.drop n) else none

/-- Pass over blanks and line breaks. -/
def skipLines : List Char → List Char
  | [] => []
  | '\r' :: '\n' :: rest => skipLines rest
  | c :: rest => if isBlank c || c = '\n' then skipLines rest else c :: rest

/-- Read up to three closing quotation marks; a backslash at the end of a line takes away the line
break and all blanks behind it. -/
def longBasic? (cs : List Char) : Option (List Char × List Char) :=
  match closing? '"' cs with
  | some done => some done
  | none =>
      match cs with
      | [] => none
      | '\\' :: rest =>
          -- a backslash at the end of a line
          if (lineBreak? (rest.dropWhile isBlank)).isSome then
            if _h : (skipLines rest).length ≤ rest.length then longBasic? (skipLines rest) else none
          else
            match escape? rest with
            | some (c, after) =>
                if _h : after.length ≤ rest.length then
                  (longBasic? after).map fun (cs, end_) => (c :: cs, end_)
                else none
            | none => none
      | c :: rest =>
          if isPlain c || c = '\n' || (c = '\r' && rest.head? = some '\n') then
            (longBasic? rest).map fun (cs, end_) => (c :: cs, end_)
          else none
termination_by cs.length

/-- Read up to three closing apostrophes. -/
def longLiteral? (cs : List Char) : Option (List Char × List Char) :=
  match closing? '\'' cs with
  | some done => some done
  | none =>
      match cs with
      | [] => none
      | c :: rest =>
          if isPlain c || c = '\n' || (c = '\r' && rest.head? = some '\n') then
            (longLiteral? rest).map fun (cs, end_) => (c :: cs, end_)
          else none
termination_by cs.length

def quoted? : List Char → Option (List Char × List Char)
  | '"' :: '"' :: '"' :: rest => longBasic? ((lineBreak? rest).getD rest)
  | '\'' :: '\'' :: '\'' :: rest => longLiteral? ((lineBreak? rest).getD rest)
  | cs => lineText? cs

/-! ## Writing -/

def longestRun (d : Char) (cs : List Char) : Nat :=
  (cs.foldl (fun (longest, current) c =>
    let n := if c = d then current + 1 else 0
    (max longest n, n)) (0, 0)).1

/-- Whether a control character needs an escape even in a text over several lines. -/
def needsEscape (c : Char) : Bool :=
  c ≠ '\n' && !isPlain c

/-- The hexadecimal digits of a code, four of them. -/
def fourDigits (n : Nat) : List Char :=
  [n / 4096 % 16, n / 256 % 16, n / 16 % 16, n % 16].map fun d => (Nat.digitChar d).toUpper

/-- The characters between quotation marks; of a run of quotation marks so many stand unescaped. -/
def escaped (many : Bool) (free : Nat) : Nat → List Char → List Char
  | _, [] => []
  | run, c :: rest =>
      if c = '"' then
        if run < free then '"' :: escaped many free (run + 1) rest
        else '\\' :: '"' :: escaped many free 0 rest
      else
        (if c = '\\' then ['\\', '\\']
         else if c = '\x08' then ['\\', 'b']
         else if c = '\t' then ['\\', 't']
         else if c = '\n' then (if many then ['\n'] else ['\\', 'n'])
         else if c = '\x0c' then ['\\', 'f']
         else if c = '\r' then ['\\', 'r']
         else if isPlain c then [c]
         else ['\\', 'u'] ++ fourDigits c.toNat) ++ escaped many free 0 rest

/-- A text in the plainest form that holds it: between quotation marks without escapes, between
apostrophes, in one of these forms over several lines, and with escapes only if nothing else does. -/
def writeText (cs : List Char) : List Char :=
  let controls := cs.any needsEscape
  let backslash := cs.contains '\\'
  let breaks := cs.contains '\n'
  let quotes := longestRun '"' cs
  let apostrophes := longestRun '\'' cs
  let start := if breaks then ['\n'] else []
  let three := fun (c : Char) => [c, c, c]
  if !controls && !backslash && quotes = 0 && !breaks then
    '"' :: escaped false 0 0 cs ++ ['"']
  else if !controls && apostrophes = 0 && !breaks then '\'' :: cs ++ ['\'']
  else if !controls && !backslash && quotes ≤ 2 then
    three '"' ++ start ++ escaped true 2 0 cs ++ three '"'
  else if !controls && apostrophes ≤ 2 then three '\'' ++ start ++ cs ++ three '\''
  else if breaks then three '"' ++ start ++ escaped true 2 0 cs ++ three '"'
  else '"' :: escaped false 0 0 cs ++ ['"']

end Toml
end Recast
