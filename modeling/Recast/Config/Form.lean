import Recast.Config.Basic
import Recast.Config.Environment
import Recast.Json.Value
import Recast.Toml.Printer
import Recast.Toml.Reader
import Recast.Toml.Shape

/-!
# Form — settings as text

Settings are read from a configuration text, in which references to variables are replaced first, and
written as one.  They also have a Json form.

* `Config.load` — read settings and look for faults;
* `Config.toText` — write settings; what is optional and missing is left out;
* `Config.toJson` — the Json form.
-/

namespace Recast
namespace Config

/-! ## Reading -/

def Logging.ofToml? (v : Toml) : Option Logging := do
  let fs ← v.fields? ["level", "ansi"]
  return ⟨← Toml.defaulted fs "level" standard.level Toml.string?,
    ← Toml.defaulted fs "ansi" standard.ansi Toml.bool?⟩

def oaiOfToml? (v : Toml) : Option OaiOptions := do
  let fs ← v.fields? ["record_tag", "record_entity", "sections", "require_sections"]
  let d := OaiOptions.standard
  return ⟨← Toml.defaulted fs "record_tag" d.recordTag Toml.string?,
    ← Toml.optional fs "record_entity" d.recordEntity Toml.string?,
    ← Toml.defaulted fs "sections" d.sections (Toml.list? Toml.string?),
    ← Toml.defaulted fs "require_sections" d.requireSections Toml.bool?⟩

def Csv.ofToml? (v : Toml) : Option Csv := do
  let fs ← v.fields? ["delimiter", "has_headers", "id_column"]
  return ⟨← Toml.defaulted fs "delimiter" standard.delimiter Toml.char?,
    ← Toml.defaulted fs "has_headers" standard.hasHeaders Toml.bool?,
    ← Toml.optional fs "id_column" standard.idColumn Toml.string?⟩

def jsonOfToml? (v : Toml) : Option JsonOptions := do
  let fs ← v.fields? ["id_field", "record_path"]
  let d := JsonOptions.standard
  return ⟨← Toml.optional fs "id_field" d.idField Toml.string?,
    ← Toml.optional fs "record_path" d.recordPath Toml.string?⟩

def Decoding.ofToml? (v : Toml) : Option Decoding := do
  let fs ← v.fields? ["format", "oai", "csv", "json"]
  return ⟨← Toml.defaulted fs "format" standard.format Toml.string?,
    ← Toml.defaulted fs "oai" standard.oai oaiOfToml?,
    ← Toml.defaulted fs "csv" standard.csv Csv.ofToml?,
    ← Toml.defaulted fs "json" standard.json jsonOfToml?⟩

def SkipRecord.ofToml? (v : Toml) : Option SkipRecord := do
  let fs ← v.fields? ["path", "value"]
  return ⟨← Toml.required fs "path" Toml.string?, ← Toml.required fs "value" Toml.string?⟩

def Skip.ofToml? (v : Toml) : Option Skip := do
  let fs ← v.fields? ["entities", "literals", "records"]
  return ⟨← Toml.defaulted fs "entities" standard.entities (Toml.list? Toml.string?),
    ← Toml.defaulted fs "literals" standard.literals (Toml.list? Toml.string?),
    ← Toml.defaulted fs "records" standard.records (Toml.list? SkipRecord.ofToml?)⟩

def Pipeline.ofToml? (v : Toml) : Option Pipeline := do
  let fs ← v.fields? ["workers", "default_record_class", "skip"]
  return ⟨← Toml.defaulted fs "workers" standard.workers Toml.count?,
    ← Toml.optional fs "default_record_class" standard.defaultRecordClass Toml.string?,
    ← Toml.defaulted fs "skip" standard.skip Skip.ofToml?⟩

def dataModelOfToml? (v : Toml) : Option DataModel := do
  let fs ← v.fields? ["id", "record_base_uri", "schema_base_uri", "record_class_uri"]
  let d := DataModel.standard
  return ⟨← Toml.defaulted fs "id" d.id Toml.string?,
    ← Toml.defaulted fs "record_base_uri" d.recordBase Toml.string?,
    ← Toml.defaulted fs "schema_base_uri" d.schemaBase Toml.string?,
    ← Toml.optional fs "record_class_uri" d.recordClass Toml.string?⟩

def tableOfToml? (v : Toml) : Option StoreKey := do
  let fs ← v.fields? ["resource", "configuration"]
  return ⟨← Toml.defaulted fs "resource" standardTable.resource Toml.string?,
    ← Toml.defaulted fs "configuration" standardTable.configuration Toml.string?⟩

def ofToml? (v : Toml) : Option Config := do
  let fs ← v.fields? ["logging", "decoder", "pipeline", "data_model", "memorydb"]
  return ⟨← Toml.defaulted fs "logging" standard.logging Logging.ofToml?,
    ← Toml.defaulted fs "decoder" standard.decoder Decoding.ofToml?,
    ← Toml.defaulted fs "pipeline" standard.pipeline Pipeline.ofToml?,
    ← Toml.defaulted fs "data_model" standard.dataModel dataModelOfToml?,
    ← Toml.defaulted fs "memorydb" standard.table tableOfToml?⟩

/-! ## Whole texts -/

/-- Why there are no settings. -/
inductive LoadError where
  /-- The text is no configuration text, or not one with settings. -/
  | unreadable
  | unsetVariable (name : String)
  | invalid (fault : Fault)
  deriving DecidableEq, Repr

def LoadError.message : LoadError → String
  | .unreadable => "<toml>"
  | .unsetVariable name => s!"Environment variable not found: {name}"
  | .invalid fault => s!"Invalid value for '{fault.field}': {fault.reason}"

def load (env : Environment) (text : String) : Except LoadError Config :=
  match Toml.ofText? text with
  | none => .error .unreadable
  | some tree =>
      match tree.resolve env with
      | .error name => .error (.unsetVariable name)
      | .ok tree =>
          match ofToml? tree with
          | none => .error .unreadable
          | some c =>
              match c.fault? with
              | some f => .error (.invalid f)
              | none => .ok c

/-! ## Writing -/

/-- A field that is left out if it is missing. -/
def optionalField (name : String) : Option String → List (String × Toml.Field)
  | some s => [(name, .text s)]
  | none => []

def Decoding.sections (d : Decoding) : List Toml.Section :=
  [⟨["decoder"], false, [("format", .text d.format)]⟩,
    ⟨["decoder", "oai"], false, [("record_tag", .text d.oai.recordTag)] ++
      optionalField "record_entity" d.oai.recordEntity ++
      [("sections", .texts d.oai.sections), ("require_sections", .flag d.oai.requireSections)]⟩,
    ⟨["decoder", "csv"], false, [("delimiter", .text d.csv.delimiter.toString),
      ("has_headers", .flag d.csv.hasHeaders)] ++ optionalField "id_column" d.csv.idColumn⟩,
    ⟨["decoder", "json"], false,
      optionalField "id_field" d.json.idField ++ optionalField "record_path" d.json.recordPath⟩]

/-- The sections of what is left out: rules for records have sections of their own. -/
def Skip.sections (s : Skip) : List Toml.Section :=
  ⟨["pipeline", "skip"], false, [("entities", .texts s.entities), ("literals", .texts s.literals)] ++
    (if s.records.isEmpty then [("records", .texts [])] else [])⟩ ::
    s.records.map fun r =>
      ⟨["pipeline", "skip", "records"], true, [("path", .text r.path), ("value", .text r.value)]⟩

def Pipeline.sections (p : Pipeline) : List Toml.Section :=
  ⟨["pipeline"], false, ("workers", .number p.workers) ::
    optionalField "default_record_class" p.defaultRecordClass⟩ :: p.skip.sections

def sections (c : Config) : List Toml.Section :=
  [⟨["logging"], false, [("level", .text c.logging.level), ("ansi", .flag c.logging.ansi)]⟩] ++
    c.decoder.sections ++ c.pipeline.sections ++
    [⟨["data_model"], false, [("id", .text c.dataModel.id),
        ("record_base_uri", .text c.dataModel.recordBase),
        ("schema_base_uri", .text c.dataModel.schemaBase)] ++
        optionalField "record_class_uri" c.dataModel.recordClass⟩,
      ⟨["memorydb"], false, [("resource", .text c.table.resource),
        ("configuration", .text c.table.configuration)]⟩]

def toText (c : Config) : String :=
  Toml.ofSections c.sections

/-! ## The Json form -/

def Decoding.toJson (d : Decoding) : Json :=
  .object [("format", .string d.format),
    ("oai", .object [("record_tag", .string d.oai.recordTag),
      ("record_entity", Json.ofString? d.oai.recordEntity),
      ("sections", Json.ofStrings d.oai.sections),
      ("require_sections", .bool d.oai.requireSections)]),
    ("csv", .object [("delimiter", .string d.csv.delimiter.toString),
      ("has_headers", .bool d.csv.hasHeaders), ("id_column", Json.ofString? d.csv.idColumn)]),
    ("json", .object [("id_field", Json.ofString? d.json.idField),
      ("record_path", Json.ofString? d.json.recordPath)])]

def Pipeline.toJson (p : Pipeline) : Json :=
  .object [("workers", .number (.integer p.workers)),
    ("default_record_class", Json.ofString? p.defaultRecordClass),
    ("skip", .object [("entities", Json.ofStrings p.skip.entities),
      ("literals", Json.ofStrings p.skip.literals),
      ("records", .array (p.skip.records.map fun r =>
        .object [("path", .string r.path), ("value", .string r.value)]))])]

def toJson (c : Config) : Json :=
  .object [("logging", .object [("level", .string c.logging.level), ("ansi", .bool c.logging.ansi)]),
    ("decoder", c.decoder.toJson), ("pipeline", c.pipeline.toJson),
    ("data_model", .object [("id", .string c.dataModel.id),
      ("record_base_uri", .string c.dataModel.recordBase),
      ("schema_base_uri", .string c.dataModel.schemaBase),
      ("record_class_uri", Json.ofString? c.dataModel.recordClass)]),
    ("memorydb", .object [("resource", .string c.table.resource),
      ("configuration", .string c.table.configuration)])]

end Config
end Recast
