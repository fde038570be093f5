import Recast.Markup.Character
import Recast.Text.Count

/-!
# Content — texts inside documents

A text is written as characters and references.  A reference names one of five characters, or gives
a code point in decimal or hexadecimal digits.

* `Markup.pieces?` — the characters and references of a text;
* `Markup.textOf` — what a text between tags stands for: every line end becomes a line feed;
* `Markup.valueOf` — what the text of an attribute stands for: blank characters become spaces;
* `Markup.escaped` — a text written so that none of its characters is taken for markup.

A character that is given by a reference stands for itself, whatever it is.
-/

namespace Recast
namespace Markup

/-- A character of a text: written as it is, or given by a reference. -/
inductive Piece where
  | written (c : Char)
  | referred (c : Char)
  deriving DecidableEq, Repr

/-! ## References -/

/-- The character with a code point; other numbers of 32 bits stand for the replacement character. -/
def charOf? (n : Nat) : Option Char :=
  if Count.max32 < n then none
  else
    let c := if n.isValidChar then Char.ofNat n else '\uFFFD'
    if isChar c then some c else none

def number? (base : Nat) (ds : List Char) : Option Nat :=
  if ds.isEmpty then none
  else ds.foldlM (fun n c => (Text.hexDigit? c).map fun d => n * base + d) 0

def named? : List Char → Option Char
  | ['q', 'u', 'o', 't'] => some '"'
  | ['a', 'm', 'p'] => some '&'
  | ['a', 'p', 'o', 's'] => some '\''
  | ['l', 't'] => some '<'
  | ['g', 't'] => some '>'
  | _ => none

/-- The character meant between the ampersand and the semicolon of a reference. -/
def referent? : List Char → Option Char
  | '#' :: 'x' :: ds => (number? 16 ds).bind charOf?
  | '#' :: ds => if ds.all Char.isDigit then (number? 10 ds).bind charOf? else none
  | name => named? name

/-- The characters and references of a text. -/
def pieces? : List Char → Option (List Piece)
  | [] => some []
  | '&' :: rest =>
      match _h : rest.dropWhile (· != ';') with
      | [] => none
      | _ :: tail => do
          let c ← referent? (rest.takeWhile (· != ';'))
          let ps ← pieces? tail
          return .referred c :: ps
  | c :: rest => (pieces? rest).map (.written c :: ·)
termination_by cs => cs.length
decreasing_by
  · have := (@List.dropWhile_sublist _ rest (· != ';')).length_le
    rw [_h, List.length_cons] at this
    simp only [List.length_cons]
    omega
  · simp

/-! ## What texts stand for -/

/-- Read one piece of a text, behind the characters that are given in reverse.  A carriage return
becomes a line feed as soon as the next written character shows that its line is over; `kept` says
that the piece before was a reference, behind which one character is taken as it is. -/
def readPiece (last : Bool) : List Char × Bool → Piece → List Char × Bool
  | (done, _), .referred c => (c :: done, true)
  -- right behind a reference a character is not looked at
  | (done, true), .written c => (c :: done, false)
  | (done, false), .written c =>
      match done with
      -- the carriage return that was kept turns out to end a line
      | '\r' :: earlier =>
          if c = '\n' then ('\n' :: earlier, false)
          else if last && c = '\r' then ('\n' :: '\n' :: earlier, false)
          else (c :: '\n' :: earlier, false)
      | _ => ((if last && c = '\r' then '\n' else c) :: done, false)

def readPieces (state : List Char × Bool) : List Piece → List Char × Bool
  | [] => state
  | p :: rest => readPieces (readPiece rest.isEmpty state p) rest

/-- What a text between tags stands for. -/
def textOf (ps : List Piece) : String :=
  String.ofList (readPieces ([], false) ps).1.reverse

/-- What the text of an attribute stands for; a carriage return goes with the line feed behind it. -/
def valueOf : List Piece → List Char
  | [] => []
  | .referred c :: rest => c :: valueOf rest
  | .written '\r' :: .written '\n' :: rest => ' ' :: valueOf rest
  | .written c :: rest => (if isBlank c then ' ' else c) :: valueOf rest

/-! ## Writing texts -/

/-- A character, by a reference if it could be taken for markup. -/
def escapedChar : Char → List Char
  | '<' => "&lt;".toList
  | '>' => "&gt;".toList
  | '&' => "&amp;".toList
  | '\'' => "&apos;".toList
  | '"' => "&quot;".toList
  | c => [c]

def escaped (s : String) : List Char :=
  s.toList.flatMap escapedChar

end Markup
end Recast
