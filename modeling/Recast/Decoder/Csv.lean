import Recast.Decoder.Basic
import Recast.Delimited.Row
import Recast.Text.Blank
import Recast.Text.Utf8

/-!
# Csv — rows as records

Each row is a record and each field that is not empty a literal.  The literals are named by the
first row, or by the numbers of their columns.
-/

namespace Recast

/-- How delimited text is written. -/
structure CsvOptions where
  delimiter : UInt8
  /-- Whether the first row names the columns. -/
  hasHeaders : Bool
  /-- The column with the ids of the records. -/
  idColumn : Option String
  deriving DecidableEq, Repr

namespace CsvOptions

def standard : CsvOptions := ⟨44, true, none⟩

def firstLine? (s : String) : Option (List Char) :=
  match s.toList with
  | [] => none
  | cs =>
      let line := cs.takeWhile (· != '\n')
      -- a carriage return belongs to the line break only in front of a line feed
      if line.length < cs.length && line.getLast? == some '\r' then some line.dropLast
      else some line

/-- Delimited text has the delimiter in its first line. -/
def recognizes (o : CsvOptions) (input : String) : Bool :=
  (firstLine? input).any fun line => line.contains (Char.ofNat o.delimiter.toNat)

def fault (cause : Malformation) : DecodeError :=
  .malformed "csv" cause

def textsFrom (row : Nat) (start : Delimited.Place) (column : Nat) :
    List (List UInt8) → Except DecodeError (List String)
  | [] => .ok []
  | bytes :: rest =>
      match Utf8.decode bytes with
      | .error good => .error (fault (.noText row start.line column start.byte good))
      | .ok s => (textsFrom row start (column + 1) rest).map (s :: ·)

def texts (row : Nat) (r : Delimited.Row) : Except DecodeError (List String) :=
  textsFrom row r.start 0 r.fields

/-- The name of a column, counted from zero. -/
def columnName (headers : List String) (column : Nat) : String :=
  headers.getD column s!"column{column + 1}"

def idOf (idIndex : Option Nat) (record : Nat) (cells : List String) : String :=
  match (idIndex.bind fun i => cells[i]?).map Text.trim with
  | some id => if id = "" then toString record else id
  | none => toString record

def events (headers : List String) (idIndex : Option Nat) (record : Nat) (cells : List String) :
    List Event :=
  .startRecord (idOf idIndex record cells) ::
    (cells.zipIdx.filterMap fun (cell, column) =>
      if cell = "" then none else some (.literal (columnName headers column) cell)) ++
    [.endRecord]

/-- Read a row that must have a number of fields. -/
def record (headers : List String) (idIndex : Option Nat) (above width : Nat) (number : Nat)
    (r : Delimited.Row) : Except DecodeError (List Event) := do
  let row := above + number - 1
  -- the width counts before the texts: a row of the wrong width may hold any bytes
  if r.fields.length ≠ width then
    throw (fault (.ragged row r.fields.length width))
  return events headers idIndex number (← texts row r)

/-- The first row with the names of the columns, and the rows below it. -/
def splitHeader (o : CsvOptions) (rows : List Delimited.Row) :
    Except DecodeError (List String × List Delimited.Row) :=
  match o.hasHeaders, rows with
  | true, first :: below => (texts 0 first).map fun names => (names.map Text.trim, below)
  | _, _ => .ok ([], rows)

def idIndex (o : CsvOptions) (headers : List String) : Except DecodeError (Option Nat) :=
  match o.idColumn with
  | none => .ok none
  | some column =>
      match headers.findIdx? fun h => h = column with
      | some i => .ok (some i)
      | none => .error (fault (.noIdColumn column))

def decode (o : CsvOptions) (input : String) : Decoded :=
  let rows := Delimited.rows o.delimiter (Utf8.encode input)
  let width := (rows.head?.map fun r => r.fields.length).getD 0
  let above := if o.hasHeaders then 1 else 0
  match splitHeader o rows with
  | .error e => .failed e
  | .ok (headers, below) =>
      match idIndex o headers with
      | .error e => .failed e
      | .ok i => .ofRecords (record headers i above width) below

def decoder (o : CsvOptions) : Decoder :=
  ⟨"csv", 10, o.recognizes, o.decode⟩

end CsvOptions
end Recast
