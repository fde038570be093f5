import Recast.Decoder.Basic
import Recast.Json.Printer
import Recast.Json.Written
import Recast.Text.Blank
import Recast.Text.Parts

/-!
# Json — objects as records

An object is a record; an array holds one record per item.  Inside a record an object is an entity,
the items of an array repeat the key of the array, and null says nothing.
-/

namespace Recast

/-- Where the records of a document are. -/
structure JsonOptions where
  /-- The field with the ids of the records. -/
  idField : Option String
  /-- The keys that lead to the records, joined by dots. -/
  recordPath : Option String
  deriving DecidableEq, Repr

def JsonOptions.standard : JsonOptions := ⟨none, none⟩

namespace Json

/-- The text of a string, a number or a truth value. -/
def scalar? : Json → Option String
  | .string s => some s
  | .number n => some (String.ofList n.chars)
  | .bool b => some (if b then "true" else "false")
  | _ => none

def member? (v : Json) (key : String) : Option Json :=
  v.asObject?.bind (Assoc.get? key)

mutual
def valueEvents (key : String) : Json → List Event
  | .null => []
  | .array items => itemsEvents key items
  | .object members => .startEntity key :: membersEvents members ++ [.endEntity]
  | .string s => [.literal key s]
  | .number n => [.literal key (String.ofList n.chars)]
  | .bool b => [.literal key (if b then "true" else "false")]

/-- The events of the items of an array under its key. -/
def itemsEvents (key : String) : List Json → List Event
  | [] => []
  | v :: rest => valueEvents key v ++ itemsEvents key rest

def membersEvents : List (String × Json) → List Event
  | [] => []
  | m :: rest => memberEvents m ++ membersEvents rest

def memberEvents : String × Json → List Event
  | (key, v) => valueEvents key v
end

end Json

namespace JsonOptions

/-- Json text starts with a brace or a bracket. -/
def recognizes (input : String) : Bool :=
  match Text.trimLeft input.toList with
  | '{' :: _ => true
  | '[' :: _ => true
  | _ => false

def fault (cause : Malformation) : DecodeError :=
  .malformed "json" cause

def recordId (o : JsonOptions) (number : Nat) (v : Json) : String :=
  match (o.idField.bind v.member?).bind Json.scalar? with
  | some id => if Text.trim id = "" then toString number else id
  | none => toString number

def record (o : JsonOptions) (number : Nat) (v : Json) : Except DecodeError (List Event) :=
  match v with
  | .object members =>
      .ok (.startRecord (recordId o number v) :: Json.membersEvents members ++ [.endRecord])
  | _ => .error (fault (.notAnObject number))

/-- The part of a document that holds the records. -/
def root (o : JsonOptions) (document : Json) : Except DecodeError Json :=
  match o.recordPath with
  | none => .ok document
  | some path =>
      match (Text.parts '.' path).foldlM Json.member? document with
      | some v => .ok v
      | none => .error (fault (.noValue path))

def decode (o : JsonOptions) (input : String) : Decoded :=
  match Json.parse? input with
  | none => .failed (fault .json)
  | some document =>
      match root o document with
      | .error e => .failed e
      | .ok (.array items) => .ofRecords (record o) items
      | .ok (.object members) => .ofRecords (record o) [.object members]
      | .ok _ => .failed (fault .noRecords)

def decoder (o : JsonOptions) : Decoder :=
  ⟨"json", 55, recognizes, o.decode⟩

end JsonOptions
end Recast
