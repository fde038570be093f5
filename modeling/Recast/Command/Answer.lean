import Recast.Command.Line
import Recast.Config.Form
import Recast.Flow.Task
import Recast.Graph.Form

/-!
# Answer — what commands come to

A command reads files, and answers with text, with a file to be written, or with an error.

* `Request.files` — the files that a request reads;
* `Request.answer` — the answer to a request;
* `Answer.ofArgs` — the answer to a command line.
-/

namespace Recast

/-- The texts of files by their names. -/
abbrev Files := String → Option String

/-- What a command comes to. -/
structure Answer where
  /-- Zero for success, two for a command line that cannot be understood, one for all else. -/
  exit : UInt32
  text : String
  error : Option String
  /-- The name and the text of a file to be written. -/
  document : Option (String × String)
  deriving DecidableEq, Repr

namespace Answer

def ofText (text : String) : Answer := ⟨0, text, none, none⟩

def failed (message : String) : Answer := ⟨1, "", some message, none⟩

/-- The answer when the file of an answer cannot be written. -/
def unwritten (name : String) : Answer := failed s!"Failed to write {name}"

end Answer

namespace ProgramSource

def files : ProgramSource → List String
  | .identity => []
  | .job path | .script path => [path]

end ProgramSource

namespace Command

def files : Command → List String
  | .compile job _ => [job]
  | .validate job => [job]
  | .run program inputs _ _ _ => program.files ++ inputs
  | .schema program input _ => program.files ++ [input]

def readFile (files : Files) (path : String) : Except String String :=
  match files path with
  | some text => .ok text
  | none => .error s!"Failed to read {path}"

/-! ## Flows -/

def program (files : Files) : ProgramSource → Except String Program
  | .identity => .ok .identity
  | .job path => do
      let job ← (Job.load (← readFile files path)).mapError fun _ => s!"Failed to load job {path}"
      (Program.ofJob job).mapError fun _ => s!"Failed to compile job {path}"
  | .script path => do
      (Program.ofText (← readFile files path)).mapError fun _ => s!"Failed to load script {path}"

def decoder (c : Config) (format : Option String) (input : String) : Except String Decoder :=
  let name := format.getD c.decoder.format
  let registry := Registry.ofOptions c.decoder.options
  let known := Text.quotedList (registry.decoders.map Decoder.name)
  (registry.resolve name input).mapError fun _ => s!"No decoder for format '{name}' (known: {known})"

def flow (c : Config) (files : Files) (source : ProgramSource) (format : Option String)
    (input : String) : Except String Flow := do
  let decoder ← decoder c format input
  let program ← program files source
  let skip ← c.pipeline.skip.rules.mapError Config.BadPattern.message
  return ⟨program, decoder, c.dataModel, skip, c.pipeline.defaultClass?⟩

def task (c : Config) (files : Files) (source : ProgramSource) (format : Option String)
    (path : String) : Except String Task := do
  let input ← readFile files path
  return ⟨path, ← flow c files source format input, input⟩

/-- The result of a task, or which document has none. -/
def result (path : String) (r : Except FlowError Model) : Except String Model :=
  r.mapError fun _ => s!"Failed to run {path}"

/-! ## Commands -/

def compileText (files : Files) (path : String) : Except String String := do
  let job ← (Job.load (← readFile files path)).mapError fun _ => s!"Failed to load job {path}"
  let script ← job.compile.mapError fun _ => s!"Failed to compile job {path}"
  return script.toText

/-- The reports on all that is wrong with a job. -/
def problems (text : String) : List String :=
  match Job.compileText text with
  | .ok _ => []
  | .error e => e.issues.map CompileIssue.message

def lines (ls : List String) : String :=
  Text.glue "" (ls.map (· ++ "\n"))

def tableReport (key : StoreKey) (predicates : List String) : String :=
  lines (["", s!"Stored in MemoryDb {key.text} ({predicates.length} predicates):"] ++
    predicates.map ("  " ++ ·))

/-- The model of several documents, with a report on the table if it is stored. -/
def runText (c : Config) (files : Files) (source : ProgramSource) (inputs : List String)
    (format : Option String) (raw store : Bool) : Except String String := do
  let tasks ← inputs.mapM (task c files source format)
  let sink := if store then Sink.table c.table else .discard
  let done := Task.runAll sink tasks .empty
  let models ← (inputs.zip done.results).mapM fun r => result r.1 r.2
  let model := models.foldl Model.merge .empty
  let json := if raw then model.toRawJson else model.toJson
  return json.pretty ++ "\n" ++
    (if store then tableReport c.table (done.store.schema c.table).toList else "")

def schemaText (c : Config) (files : Files) (source : ProgramSource) (input : String)
    (format : Option String) : Except String String := do
  let t ← task c files source format input
  let model ← result input ((t.run .discard .empty).result.map Task.Output.model)
  return lines (model.schema.toList.map fun p => Text.glue " / " p.attributes)

/-- An answer of text, or an error. -/
def settle (r : Except String String) : Answer :=
  match r with
  | .ok text => .ofText text
  | .error message => .failed message

def answer (c : Config) (files : Files) : Command → Answer
  | .compile job none => settle ((compileText files job).map (· ++ "\n"))
  | .compile job (some output) =>
      match compileText files job with
      | .ok text => ⟨0, "", none, some (output, text)⟩
      | .error message => .failed message
  | .validate job =>
      match readFile files job with
      | .error message => .failed message
      | .ok text =>
          match problems text with
          | [] => .ofText s!"{job}: ok\n"
          | ps => ⟨1, lines (ps.map fun p => s!"{job}: {p}"),
              some s!"{ps.length} issue(s) found in {job}", none⟩
  | .run program inputs format raw store => settle (runText c files program inputs format raw store)
  | .schema program input format => settle (schemaText c files program input format)

end Command

namespace Request

def files (r : Request) : List String :=
  r.config.toList ++ r.command.files

def settings (r : Request) (env : Environment) (files : Files) : Except String Config :=
  match r.config with
  | none => .ok .standard
  | some path =>
      match files path with
      | none => .error "Failed to load configuration"
      | some text => (Config.load env text).mapError fun _ => "Failed to load configuration"

def answer (r : Request) (env : Environment) (files : Files) : Answer :=
  match r.settings env files with
  | .ok c => r.command.answer c files
  | .error message => .failed message

end Request

namespace Answer

def usage : String :=
  Command.lines [
    "Usage: dswarm [OPTIONS] <COMMAND>",
    "",
    "Commands:",
    "  compile [-o FILE] JOB",
    "  validate JOB",
    "  run [--job JOB | --script SCRIPT] [-f FORMAT] [--raw] [--store] INPUT...",
    "  schema [--job JOB | --script SCRIPT] [-f FORMAT] INPUT",
    "",
    "Options:",
    "  -C, --config FILE",
    "  -l, --log-level LEVEL",
    "  -v, --verbose",
    "  -h, --help",
    "  -V, --version"]

def ofStop : Command.Stop → Answer
  | .help => .ofText usage
  | .version => .ofText "dswarm 0.1.0\n"
  | .misuse => ⟨2, "", none, none⟩

def ofArgs (args : List String) (env : Environment) (files : Files) : Answer :=
  match Command.ofArgs args with
  | .ok r => r.answer env files
  | .error stop => ofStop stop

end Answer
end Recast
