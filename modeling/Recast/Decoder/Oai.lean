import Recast.Decoder.Basic
import Recast.Markup.Node
import Recast.Text.Blank

/-!
# Oai — harvested records

The records of a harvest are elements that hold sections, which are found by the labels on the way
to them.  Each element in a section is a literal with all the text inside it.
-/

namespace Recast

/-- Where the records of a harvest are, and what of them counts. -/
structure OaiOptions where
  /-- The label of records. -/
  recordTag : String
  /-- The name of an entity around all sections. -/
  recordEntity : Option String
  /-- The labels on the way to each section, joined by dots. -/
  sections : List String
  /-- Whether a section that is not there is a fault. -/
  requireSections : Bool
  deriving DecidableEq, Repr

def OaiOptions.standard : OaiOptions :=
  ⟨"record", none, ["header", "metadata.oai_dc:dc"], true⟩

namespace OaiOptions

/-- A harvest is a document in which the opening of a record occurs. -/
def recognizes (o : OaiOptions) (input : String) : Bool :=
  match Text.trimLeft input.toList with
  | '<' :: rest => (Text.cut? ('<' :: o.recordTag.toList) ('<' :: rest)).isSome
  | _ => false

def findSection? (record : Markup.Node) (path : String) : Option Markup.Node :=
  (Text.parts '.' path).foldlM (fun n l => n.elements.find? fun e => e.label = l) record

def child? (n : Markup.Node) (name : String) : Option Markup.Node :=
  n.elements.find? fun e => e.name = name

/-- The identifier in the header of a record, or the number of the record. -/
def recordId (number : Nat) (record : Markup.Node) : String :=
  match ((child? record "header").bind fun h => child? h "identifier").map fun i =>
      Text.trim i.allText with
  | some id => if id = "" then toString number else id
  | none => toString number

/-- The sections of a record that are there, each with its path. -/
def sectionsOf (o : OaiOptions) (number : Nat) (record : Markup.Node) :
    Except DecodeError (List (String × Markup.Node)) := do
  let found ← o.sections.mapM fun path =>
    match findSection? record path with
    | some n => .ok [(path, n)]
    | none =>
        if o.requireSections then .error (.missingSection number path) else .ok []
  return found.flatten

/-- Events inside entities, outer ones first. -/
def within (names : List String) (inner : List Event) : List Event :=
  names.map .startEntity ++ inner ++ names.map fun _ => .endEntity

def sectionEvents (path : String) (n : Markup.Node) : List Event :=
  within (Text.parts '.' path) (n.elements.map fun e => .literal e.label e.allText)

def record (o : OaiOptions) (number : Nat) (n : Markup.Node) : Except DecodeError (List Event) := do
  let found ← sectionsOf o number n
  return .startRecord (recordId number n) ::
    within o.recordEntity.toList (found.flatMap fun s => sectionEvents s.1 s.2) ++ [.endRecord]

def decode (o : OaiOptions) (input : String) : Decoded :=
  match Markup.Node.ofText? input with
  | none => .failed (.malformed "oai" .xml)
  | some root => .ofRecords (record o) (root.labelled o.recordTag)

def decoder (o : OaiOptions) : Decoder :=
  ⟨"oai", 60, o.recognizes, o.decode⟩

end OaiOptions
end Recast
