/-!
# Row — delimited text

Rows end at a line feed, a carriage return or both, and rows without any characters do not count.
The fields of a row are divided by one byte.  A field that starts with a quotation mark goes on to
the next one, whatever stands in between; two of them in a row stand for one.

* `Delimited.Reader.step` — read one byte;
* `Delimited.rows` — the rows of a text, with the places where they start.
-/

namespace Recast
namespace Delimited

/-- A place in a text: the number of its line, and how many bytes stand in front of it. -/
structure Place where
  line : Nat
  byte : Nat
  deriving DecidableEq, Repr

/-- A row and the place behind the row before it. -/
structure Row where
  start : Place
  fields : List (List UInt8)
  deriving DecidableEq, Repr

/-- What has been read of a row. -/
inductive Mode where
  /-- Nothing. -/
  | row
  /-- Nothing of a field. -/
  | field
  /-- A part of a field. -/
  | inside
  /-- A part of a quoted field. -/
  | quoted
  /-- A quotation mark inside a quoted field. -/
  | mark
  deriving DecidableEq, Repr

/-- The state of reading rows; fields and bytes are gathered in reverse. -/
structure Reader where
  mode : Mode
  place : Place
  start : Place
  field : List UInt8
  fields : List (List UInt8)
  rows : List Row
  deriving DecidableEq, Repr

def quote : UInt8 := 34

def endsLine (b : UInt8) : Bool :=
  b = 10 || b = 13

namespace Reader

def initial : Reader := ⟨.row, ⟨1, 0⟩, ⟨1, 0⟩, [], [], []⟩

def keep (x : Reader) (mode : Mode) (b : UInt8) : Reader :=
  { x with mode, field := b :: x.field }

def endField (x : Reader) : Reader :=
  { x with mode := .field, field := [], fields := x.field.reverse :: x.fields }

/-- The end of the row, unless there is none. -/
def endRow (x : Reader) : Reader :=
  if x.mode = .row then x
  else
    let y := x.endField
    { y with mode := .row, start := x.place, fields := [],
             rows := ⟨x.start, y.fields.reverse⟩ :: x.rows }

/-- A byte that follows a field or a part of it without quotation marks. -/
def plain (delimiter : UInt8) (x : Reader) (b : UInt8) : Reader :=
  if b = delimiter then x.endField else if endsLine b then x.endRow else x.keep .inside b

def advance (x : Reader) (b : UInt8) : Reader :=
  { x with place := ⟨if b = 10 then x.place.line + 1 else x.place.line, x.place.byte + 1⟩ }

def step (delimiter : UInt8) (x : Reader) (b : UInt8) : Reader :=
  let x := x.advance b
  match x.mode with
  | .row =>
      -- a line without characters is no row
      if endsLine b then x
      else if b = quote then { x with mode := .quoted }
      else plain delimiter x b
  | .field => if b = quote then { x with mode := .quoted } else plain delimiter x b
  | .inside => plain delimiter x b
  | .quoted => if b = quote then { x with mode := .mark } else x.keep .quoted b
  -- behind the closing mark the field goes on without quotation marks
  | .mark => if b = quote then x.keep .quoted b else plain delimiter x b

end Reader

/-- The bytes with which a text may be marked. -/
def byteOrderMark : List UInt8 := [0xEF, 0xBB, 0xBF]

def Reader.afterMark (bytes : List UInt8) : Reader × List UInt8 :=
  if byteOrderMark.isPrefixOf bytes then
    ({ Reader.initial with place := ⟨1, 3⟩ }, bytes.drop 3)
  else (.initial, bytes)

def rows (delimiter : UInt8) (bytes : List UInt8) : List Row :=
  let (x, rest) := Reader.afterMark bytes
  (rest.foldl (Reader.step delimiter) x).endRow.rows.reverse

end Delimited
end Recast
