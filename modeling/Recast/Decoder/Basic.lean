import Recast.Stream.Event

/-!
# Decoder — documents as streams of records

A decoder recognizes the documents it may understand and turns a document into the events of its
records.  It stops at the first fault; what it has handed on before is whole records.

* `Decoder` — name, priority, recognition and decoding;
* `Decoded.ofRecords` — the records of a document one after the other;
* `Registry` — the decoders there are, by falling priority.
-/

namespace Recast

/-! ## Faults of documents -/

inductive Malformation where
  | json
  | xml
  /-- There is nothing at the path to the records. -/
  | noValue (path : String)
  /-- There are no records where they are looked for. -/
  | noRecords
  | notAnObject (record : Nat)
  /-- A row, the header included in the count from zero, has not as many fields as those before. -/
  | ragged (row found expected : Nat)
  | noIdColumn (column : String)
  /-- The bytes of a field are no text from some byte on. -/
  | noText (row line field byte index : Nat)
  deriving DecidableEq, Repr

def Malformation.message : Malformation → String
  | .json => "<json>"
  | .xml => "<xml>"
  | .noValue path => s!"no value at '{path}'"
  | .noRecords => "expected an object or array of objects"
  | .notAnObject record => s!"record {record} is not an object"
  | .ragged row found expected =>
      s!"CSV error: record {row}: found record with {found} fields, " ++
        s!"but the previous record has {expected} fields"
  | .noIdColumn column => s!"no id column '{column}' in header"
  | .noText row line field byte index =>
      s!"CSV parse error: record {row} (line {line}, field: {field}, byte: {byte}): " ++
        s!"invalid utf-8: invalid UTF-8 in field {field} near byte index {index}"

/-- Why a document cannot be decoded. -/
inductive DecodeError where
  | malformed (format : String) (cause : Malformation)
  | missingSection (record : Nat) (name : String)
  | unsupportedFormat (name : String)
  deriving DecidableEq, Repr

def DecodeError.message : DecodeError → String
  | .malformed format cause => s!"malformed {format} input: {cause.message}"
  | .missingSection record name => s!"record {record} has no '{name}' section"
  | .unsupportedFormat name => s!"unsupported input format '{name}'"

/-! ## Decoded documents -/

/-- The events of a document, and the number of its records unless there is a fault behind them. -/
structure Decoded where
  events : List Event
  result : Except DecodeError Nat

namespace Decoded

def failed (e : DecodeError) : Decoded := ⟨[], .error e⟩

/-- Read items as records, behind `count` records, up to the first fault. -/
def ofRecordsFrom (read : Nat → α → Except DecodeError (List Event)) (count : Nat) :
    List α → Decoded
  | [] => ⟨[], .ok count⟩
  | a :: rest =>
      match read (count + 1) a with
      | .error e => failed e
      | .ok events =>
          let d := ofRecordsFrom read (count + 1) rest
          ⟨events ++ d.events, d.result⟩

/-- Read items as records; `read` is told the number of the record, counted from one. -/
def ofRecords (read : Nat → α → Except DecodeError (List Event)) (items : List α) : Decoded :=
  ofRecordsFrom read 0 items

end Decoded

/-! ## Decoders -/

/-- A decoder for one format. -/
structure Decoder where
  name : String
  /-- Decoders with a higher priority are asked first. -/
  priority : Nat
  /-- Whether a document may be in the format. -/
  recognizes : String → Bool
  decode : String → Decoded

/-- The decoders there are, in the order in which they are asked. -/
structure Registry where
  decoders : List Decoder

namespace Registry

def empty : Registry := ⟨[]⟩

/-- Whether a decoder may be asked before another one. -/
def mayPrecede (d e : Decoder) : Bool :=
  e.priority ≤ d.priority

/-- Register a decoder in the place of any other one with its name.  It is put behind the others, and
then all are sorted by priority; those of the same priority keep their order. -/
def register (r : Registry) (d : Decoder) : Registry :=
  ⟨((r.decoders.filter fun e => e.name ≠ d.name) ++ [d]).mergeSort mayPrecede⟩

def ofList (ds : List Decoder) : Registry :=
  ds.foldl register empty

def get? (r : Registry) (name : String) : Option Decoder :=
  r.decoders.find? fun d => d.name = name

def detect? (r : Registry) (input : String) : Option Decoder :=
  r.decoders.find? fun d => d.recognizes input

/-- The decoder for a format, where `auto` leaves the choice to the document. -/
def resolve (r : Registry) (format input : String) : Except DecodeError Decoder :=
  match (if format = "auto" then r.detect? input else r.get? format) with
  | some d => .ok d
  | none => .error (.unsupportedFormat format)

end Registry
end Recast
