import Recast.Condition.Basic

/-!
# Reader — conditions from their text

```
or     ::= and ("||" and)*
and    ::= unary ("&&" unary)*
unary  ::= "!"* atom
atom   ::= "empty" | "value" ("==" | "!=" | "=~" | "contains") string | "(" or ")"
string ::= quotation marks around any characters but that mark
```

Words are maximal identifiers, and the string behind `=~` must be a regular expression.  Blanks may
stand around words, operators, brackets and strings.

The reader goes from left to right and is either about to read an operand or behind one.  It stops
at the first character that fits no way on; `Fault.message` reports the line and column of it.
-/

namespace Recast
namespace Condition

/-- Where reading has failed: the text that is left, or what is left behind the part of an operator
that fits. -/
structure Fault where
  rest : List Char

/-! ## Words and strings -/

def skipBlank (cs : List Char) : List Char :=
  cs.dropWhile Text.isBlank

/-- The identifier at the start of a text and what follows it. -/
def readWord : List Char → List Char × List Char
  | [] => ([], [])
  | c :: rest =>
      if Unicode.isIdentifierStart c then
        (c :: rest.takeWhile Unicode.isIdentifierPart, rest.dropWhile Unicode.isIdentifierPart)
      else ([], c :: rest)

def readString (cs : List Char) : Except Fault (String × List Char) :=
  match skipBlank cs with
  | [] => .error ⟨[]⟩
  | q :: rest =>
      if q = '"' || q = '\'' then
        match rest.dropWhile (· != q) with
        | [] => .error ⟨[]⟩
        | _ :: tail => .ok (String.ofList (rest.takeWhile (· != q)), tail)
      else .error ⟨q :: rest⟩

/-- A comparison, behind the word `value`. -/
def readComparison (cs : List Char) : Except Fault (Condition × List Char) :=
  match skipBlank cs with
  | '=' :: '=' :: rest => do
      let (s, tail) ← readString rest
      return (.equals s, tail)
  | '=' :: '~' :: rest => do
      let (s, tail) ← readString rest
      match Pattern.ofText? s with
      | some p => return (.matches p, tail)
      -- a bad pattern is reported where the operator could have gone on otherwise
      | none => throw ⟨'~' :: rest⟩
  | '=' :: rest => .error ⟨rest⟩
  | '!' :: '=' :: rest => do
      let (s, tail) ← readString rest
      return (.differs s, tail)
  | '!' :: rest => .error ⟨rest⟩
  | cs' =>
      let (word, rest) := readWord cs'
      if word = "contains".toList then do
        let (s, tail) ← readString rest
        return (.contains s, tail)
      else .error ⟨cs'⟩

/-! ## Operands and operators -/

/-- What has been read since the latest open bracket: the disjunction so far, the conjunction so
far, and the negations in front of the next operand. -/
structure Level where
  ors : Option Condition
  ands : Option Condition
  nots : Nat

namespace Level

def start : Level := ⟨none, none, 0⟩

def negate : Nat → Condition → Condition
  | 0, c => c
  | n + 1, c => .not (negate n c)

/-- Take an operand into the conjunction. -/
def operand (l : Level) (c : Condition) : Level :=
  let c' := negate l.nots c
  ⟨l.ors, some (match l.ands with
    | none => c'
    | some a => .and a c'), 0⟩

def value (l : Level) : Option Condition :=
  match l.ors, l.ands with
  | some a, some b => some (.or a b)
  | none, b => b
  | a, none => a

def nextOr (l : Level) : Level := ⟨l.value, none, 0⟩

end Level

/-- The state of reading: the levels of open brackets, the innermost first, and whether an operand
must follow. -/
structure State where
  level : Level
  outer : List Level
  wantsOperand : Bool

/-- Read an operand or an operator; the result is the state behind it and what is left. -/
def step (x : State) (cs : List Char) : Except Fault (State × List Char) :=
  if x.wantsOperand then
    match cs with
    | '!' :: rest => .ok ({ x with level := { x.level with nots := x.level.nots + 1 } }, rest)
    | '(' :: rest => .ok (⟨.start, x.level :: x.outer, true⟩, rest)
    | _ =>
        let (word, rest) := readWord cs
        if word = "empty".toList then .ok (⟨x.level.operand .empty, x.outer, false⟩, rest)
        else if word = "value".toList then do
          let (c, tail) ← readComparison rest
          return (⟨x.level.operand c, x.outer, false⟩, tail)
        else .error ⟨cs⟩
  else
    match cs with
    | '&' :: '&' :: rest => .ok ({ x with wantsOperand := true }, rest)
    | '&' :: rest => .error ⟨rest⟩
    | '|' :: '|' :: rest => .ok ({ x with level := x.level.nextOr, wantsOperand := true }, rest)
    | '|' :: rest => .error ⟨rest⟩
    | ')' :: rest =>
        match x.outer, x.level.value with
        -- what stood in the brackets is an operand of the level around them
        | l :: outer, some c => .ok (⟨l.operand c, outer, false⟩, rest)
        | _, _ => .error ⟨cs⟩
    | _ => .error ⟨cs⟩

def run (x : State) (cs : List Char) : Except Fault Condition :=
  match skipBlank cs with
  | [] =>
      match x.wantsOperand, x.outer, x.level.value with
      | false, [], some c => .ok c
      | _, _, _ => .error ⟨[]⟩
  | c :: rest =>
      match step x (c :: rest) with
      | .error e => .error e
      | .ok (x', tail) => if _h : tail.length < cs.length then run x' tail else .error ⟨tail⟩
termination_by cs.length

/-! ## Reports -/

def byteCount (cs : List Char) : Nat :=
  (String.ofList cs).utf8ByteSize

/-- The number of lines of a text; nothing behind the last line break is no line. -/
def lineCount (cs : List Char) : Nat :=
  cs.count '\n' + if cs.getLast?.all (· == '\n') then 0 else 1

/-- The report on a fault in a text: the line, the column in bytes, and the character found. -/
def Fault.message (e : Fault) (cs : List Char) : String :=
  let passed := cs.take (cs.length - e.rest.length)
  let line := max 1 (lineCount passed)
  let column := byteCount (passed.reverse.takeWhile (· != '\n')) + 1
  let found := match e.rest with
    | [] => "end of input"
    | c :: _ => s!"'{c}'"
  s!"Line {line}, column {column}: <reason> (found {found})"

/-- Read a condition, or report the fault in its text. -/
def ofText (s : String) : Except String Condition :=
  (run ⟨.start, [], true⟩ s.toList).mapError fun e => e.message s.toList

end Condition
end Recast
