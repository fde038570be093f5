import Recast.Decoder.Standard
import Recast.Graph.Encoder
import Recast.Skip
import Recast.Store.Basic

/-!
# Config — settings

Settings say how documents are decoded, what is left out of them, where records and attributes live,
how many tasks run at once and which table models are stored in.  Each setting has a value of its own
unless it is given.

* `Config.standard` — the settings unless others are given;
* `Config.fault?` — what is wrong with settings that have the right form;
* `Config.skipRules` — the rules of the settings, if all their patterns are patterns.
-/

namespace Recast
namespace Config

structure Logging where
  level : String
  /-- Whether reports are coloured. -/
  ansi : Bool
  deriving DecidableEq, Repr

structure Csv where
  delimiter : Char
  hasHeaders : Bool
  idColumn : Option String
  deriving DecidableEq, Repr

structure Decoding where
  /-- The name of a decoder, or `auto`. -/
  format : String
  oai : OaiOptions
  csv : Csv
  json : JsonOptions
  deriving DecidableEq, Repr

/-- Which records are left out: those with a literal at a path that matches, and a value that does. -/
structure SkipRecord where
  path : String
  value : String
  deriving DecidableEq, Repr

structure Skip where
  entities : List String
  literals : List String
  records : List SkipRecord
  deriving DecidableEq, Repr

structure Pipeline where
  /-- How many tasks run at once. -/
  workers : Nat
  /-- The class of the records of a model without a class; an empty one counts as none. -/
  defaultRecordClass : Option String
  skip : Skip
  deriving DecidableEq, Repr

end Config

structure Config where
  logging : Config.Logging
  decoder : Config.Decoding
  pipeline : Config.Pipeline
  dataModel : DataModel
  /-- The table that models are stored in. -/
  table : StoreKey
  deriving DecidableEq, Repr

namespace Config

/-! ## Standard settings -/

/-- Warnings, in colour. -/
def Logging.standard : Logging := ⟨"warn", true⟩

/-- Commas between the fields, and a first row with names. -/
def Csv.standard : Csv := ⟨',', true, none⟩

/-- The decoder is chosen by the document. -/
def Decoding.standard : Decoding := ⟨"auto", .standard, .standard, .standard⟩

def Skip.standard : Skip := ⟨[], [], []⟩

/-- Four tasks at once; records are documents. -/
def Pipeline.standard : Pipeline :=
  ⟨4, some "http://purl.org/ontology/bibo/Document", .standard⟩

def standardTable : StoreKey := ⟨"resource", "configuration"⟩

def standard : Config := ⟨.standard, .standard, .standard, .standard, standardTable⟩

/-! ## Faults -/

/-- A setting that cannot be meant. -/
inductive Fault where
  /-- The delimiter takes more than one byte. -/
  | delimiter (c : Char)
  /-- No task can run. -/
  | noWorkers
  deriving DecidableEq, Repr

def Fault.field : Fault → String
  | .delimiter _ => "decoder.csv.delimiter"
  | .noWorkers => "pipeline.workers"

def Fault.reason : Fault → String
  | .delimiter c => s!"'{c}' is not a single-byte character"
  | .noWorkers => "must be at least 1"

/-- The first fault of settings. -/
def fault? (c : Config) : Option Fault :=
  if 0x80 ≤ c.decoder.csv.delimiter.toNat then some (.delimiter c.decoder.csv.delimiter)
  else if c.pipeline.workers = 0 then some .noWorkers
  else none

/-! ## What settings mean -/

def Decoding.options (d : Decoding) : DecoderOptions :=
  ⟨d.oai, ⟨d.csv.delimiter.toNat.toUInt8, d.csv.hasHeaders, d.csv.idColumn⟩, d.json⟩

/-- The default class, unless it is empty. -/
def Pipeline.defaultClass? (p : Pipeline) : Option String :=
  p.defaultRecordClass.filter fun uri => uri ≠ ""

/-- A text that is no pattern. -/
inductive BadPattern where
  | literal (text : String)
  /-- One of the two patterns of a rule for records. -/
  | record (path : String)
  deriving DecidableEq, Repr

def BadPattern.message : BadPattern → String
  | .literal text => s!"Invalid skip pattern '{text}'"
  | .record path => s!"Invalid record skip rule for '{path}'"

def literalRule (text : String) : Except BadPattern Pattern :=
  match Pattern.ofText? text with
  | some p => .ok p
  | none => .error (.literal text)

def SkipRecord.rule (r : SkipRecord) : Except BadPattern (Pattern × Pattern) :=
  match Pattern.ofText? r.path, Pattern.ofText? r.value with
  | some p, some v => .ok (p, v)
  | _, _ => .error (.record r.path)

def Skip.rules (s : Skip) : Except BadPattern SkipRules := do
  return ⟨s.entities, ← s.literals.mapM literalRule, ← s.records.mapM SkipRecord.rule⟩

end Config
end Recast
