import Recast.Json.Numeral
import Recast.Text.Count

/-!
# Token — the lexemes of JSON text

* `Json.Token` — brackets, separators, words, numerals and texts;
* `Json.Lexer` — the state of reading one character at a time, `Lexer.step` and `Lexer.finish`;
* `Json.tokens?` — the tokens of a text, `none` if some part of it is no token;
* `Json.Token.chars` — how a token is written.

A text is kept as written, as a list of pieces, because an escape may name half of a surrogate
pair: only a text that is used has to have a meaning (`Piece.decode?`).
-/

namespace Recast
namespace Json

/-- A part of a text: a character, or the 16-bit unit of a numeric escape. -/
inductive Piece where
  | char (c : Char)
  | unit (n : Nat)
  deriving DecidableEq, Repr

namespace Piece

/-- The characters that a text stands for: a numeric escape names a character by itself, or a high
and a low surrogate together. -/
def decode? : List Piece → Option (List Char)
  | [] => some []
  | .char c :: rest => (decode? rest).map (c :: ·)
  | .unit n :: rest =>
      if n < 0xD800 || 0xE000 ≤ n then (decode? rest).map (Char.ofNat n :: ·)
      else match rest with
        | .unit m :: rest' =>
            if n < 0xDC00 && 0xDC00 ≤ m && m < 0xE000 then
              (decode? rest').map (Char.ofNat (0x10000 + (n - 0xD800) * 0x400 + (m - 0xDC00)) :: ·)
            else none
        | _ => none

/-- Characters that are written as they are stand for themselves. -/
theorem decode?_map_char (cs : List Char) : decode? (cs.map .char) = some cs := by
  induction cs with
  | nil => rfl
  | cons c rest ih => simp [decode?, ih]

end Piece

inductive Token where
  | openArray
  | closeArray
  | openObject
  | closeObject
  | comma
  | colon
  | null
  | bool (b : Bool)
  | number (x : Numeral)
  | text (ps : List Piece)
  deriving DecidableEq, Repr

/-! ## Numerals, character by character -/

/-- How far a number literal has been read; digits are gathered in reverse. -/
inductive NumeralPart where
  | sign
  | zero (negative : Bool)
  | whole (negative : Bool) (ds : List Char)
  | point (negative : Bool) (ds : List Char)
  | fraction (negative : Bool) (ds fs : List Char)
  | mark (negative : Bool) (ds : List Char) (fs : Option (List Char))
  | markSign (negative : Bool) (ds : List Char) (fs : Option (List Char)) (down : Bool)
  | exponent (negative : Bool) (ds : List Char) (fs : Option (List Char)) (down : Bool)
      (es : List Char)
  deriving DecidableEq, Repr

namespace NumeralPart

/-- Read one more character, if the literal goes on with it. -/
def next? (c : Char) : NumeralPart → Option NumeralPart
  | .sign =>
      if c = '0' then some (.zero true)
      else if c.isDigit then some (.whole true [c])
      else none
  | .zero s =>
      if c = '.' then some (.point s ['0'])
      else if c = 'e' || c = 'E' then some (.mark s ['0'] none)
      else none
  | .whole s ds =>
      if c.isDigit then some (.whole s (c :: ds))
      else if c = '.' then some (.point s ds)
      else if c = 'e' || c = 'E' then some (.mark s ds none)
      else none
  | .point s ds => if c.isDigit then some (.fraction s ds [c]) else none
  | .fraction s ds fs =>
      if c.isDigit then some (.fraction s ds (c :: fs))
      else if c = 'e' || c = 'E' then some (.mark s ds (some fs))
      else none
  | .mark s ds fs =>
      if c.isDigit then some (.exponent s ds fs false [c])
      else if c = '+' then some (.markSign s ds fs false)
      else if c = '-' then some (.markSign s ds fs true)
      else none
  | .markSign s ds fs down => if c.isDigit then some (.exponent s ds fs down [c]) else none
  | .exponent s ds fs down es =>
      if c.isDigit then some (.exponent s ds fs down (c :: es)) else none

/-- The literal read so far, if it may end here. -/
def finish? : NumeralPart → Option Numeral
  | .zero s => some ⟨s, ['0'], none, none⟩
  | .whole s ds => some ⟨s, ds.reverse, none, none⟩
  | .fraction s ds fs => some ⟨s, ds.reverse, some fs.reverse, none⟩
  | .exponent s ds fs down es => some ⟨s, ds.reverse, fs.map List.reverse, some (down, es.reverse)⟩
  | _ => none

end NumeralPart

/-! ## Tokens, character by character -/

/-- The token that is being read. -/
inductive Lexer.Mode where
  /-- Between tokens. -/
  | between
  /-- Inside a word of which some characters are still to come. -/
  | word (rest : List Char) (token : Token)
  | numeral (part : NumeralPart)
  /-- Inside a text, its pieces gathered in reverse. -/
  | text (ps : List Piece)
  /-- Behind a backslash. -/
  | escape (ps : List Piece)
  /-- Inside a numeric escape of which some digits have been read. -/
  | hex (ps : List Piece) (count value : Nat)
  deriving DecidableEq, Repr

/-- The state of reading tokens: those read so far in reverse, and the one being read. -/
structure Lexer where
  done : List Token
  mode : Lexer.Mode
  deriving DecidableEq, Repr

namespace Lexer

def isBlank (c : Char) : Bool :=
  c = ' ' || c = '\n' || c = '\t' || c = '\r'

/-- The character behind a backslash, except for numeric escapes. -/
def escaped? : Char → Option Char
  | '"' => some '"'
  | '\\' => some '\\'
  | '/' => some '/'
  | 'b' => some '\x08'
  | 'f' => some '\x0c'
  | 'n' => some '\n'
  | 'r' => some '\r'
  | 't' => some '\t'
  | _ => none

/-- The mode in which a character between tokens leaves the reader, and the token it completes. -/
def start? (c : Char) : Option (Option Token × Mode) :=
  if isBlank c then some (none, .between)
  else match c with
    | '[' => some (some .openArray, .between)
    | ']' => some (some .closeArray, .between)
    | '{' => some (some .openObject, .between)
    | '}' => some (some .closeObject, .between)
    | ',' => some (some .comma, .between)
    | ':' => some (some .colon, .between)
    | '"' => some (none, .text [])
    | 'n' => some (none, .word ['u', 'l', 'l'] .null)
    | 't' => some (none, .word ['r', 'u', 'e'] (.bool true))
    | 'f' => some (none, .word ['a', 'l', 's', 'e'] (.bool false))
    | '-' => some (none, .numeral .sign)
    | '0' => some (none, .numeral (.zero false))
    | _ => if c.isDigit then some (none, .numeral (.whole false [c])) else none

/-- Read a character between tokens. -/
def open? (done : List Token) (c : Char) : Option Lexer :=
  (start? c).map fun (t, m) => ⟨t.toList ++ done, m⟩

def step? (x : Lexer) (c : Char) : Option Lexer :=
  match x.mode with
  | .between => open? x.done c
  | .word [] _ => none
  | .word [d] t => if c = d then some ⟨t :: x.done, .between⟩ else none
  | .word (d :: rest) t => if c = d then some ⟨x.done, .word rest t⟩ else none
  | .numeral part =>
      match part.next? c with
      | some part' => some ⟨x.done, .numeral part'⟩
      | none => part.finish?.bind fun n => open? (.number n :: x.done) c
  | .text ps =>
      if c = '"' then some ⟨.text ps.reverse :: x.done, .between⟩
      else if c = '\\' then some ⟨x.done, .escape ps⟩
      else if c.toNat < 0x20 then none
      else some ⟨x.done, .text (.char c :: ps)⟩
  | .escape ps =>
      if c = 'u' then some ⟨x.done, .hex ps 0 0⟩
      else (escaped? c).map fun d => ⟨x.done, .text (.char d :: ps)⟩
  | .hex ps count value =>
      (Text.hexDigit? c).map fun d =>
        let value' := value * 16 + d
        if count = 3 then ⟨x.done, .text (.unit value' :: ps)⟩
        else ⟨x.done, .hex ps (count + 1) value'⟩

/-- The tokens read, if the text may end here. -/
def finish? (x : Lexer) : Option (List Token) :=
  match x.mode with
  | .between => some x.done.reverse
  | .numeral part => part.finish?.map fun n => (Token.number n :: x.done).reverse
  | _ => none

end Lexer

def tokens? (cs : List Char) : Option (List Token) :=
  (cs.foldlM Lexer.step? (⟨[], .between⟩ : Lexer)).bind Lexer.finish?

/-! ## How tokens are written -/

/-- The hexadecimal digit of a number below sixteen. -/
def hexChar (n : Nat) : Char :=
  Nat.digitChar n

/-- A character inside a text: quote, backslash and control characters are escaped. -/
def quotedChar (c : Char) : List Char :=
  if c = '"' then ['\\', '"']
  else if c = '\\' then ['\\', '\\']
  else if c = '\x08' then ['\\', 'b']
  else if c = '\t' then ['\\', 't']
  else if c = '\n' then ['\\', 'n']
  else if c = '\x0c' then ['\\', 'f']
  else if c = '\r' then ['\\', 'r']
  else if c.toNat < 0x20 then
    ['\\', 'u', '0', '0', hexChar (c.toNat / 16), hexChar (c.toNat % 16)]
  else [c]

def quoted (cs : List Char) : List Char :=
  '"' :: cs.flatMap quotedChar ++ ['"']

end Json
end Recast
