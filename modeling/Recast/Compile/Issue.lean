import Recast.Job.Description
import Recast.Morph.Signature
import Recast.Script.Reader
import Recast.Text.Parts

/-!
# Issue — why a job does not compile

A job is refused with all its issues at once: faults of its wiring, and faults of single
components.  `Job.load` reads a job from the text of its description.
-/

namespace Recast

/-! ## Faults of scripts -/

inductive RuleFault where
  | unknownVariable (name : String)
  | unknownFilter (name : String)
  | argument (cause : ArgumentError)
  deriving DecidableEq, Repr

def RuleFault.message : RuleFault → String
  | .unknownVariable name => s!"unknown variable '{name}'"
  | .unknownFilter name => s!"unknown filter '{name}'"
  | .argument cause => cause.message

/-- Why there is no script, or one that cannot be run. -/
inductive ScriptFault where
  | unreadable (cause : Script.ReadError)
  | rule (name part : String) (cause : RuleFault)
  /-- An input is no component before the one that reads it. -/
  | vanished (component : String)
  | noInput (kind : Kind) (component : String)
  /-- A target is read by another component. -/
  | targetFeeds (component : String)
  /-- The regular expression of a source is too large. -/
  | sourcePattern (source : String)
  deriving DecidableEq, Repr

def ScriptFault.message : ScriptFault → String
  | .unreadable cause => cause.message
  | .rule name part cause => s!"rule '{name}', {part}: {cause.message}"
  | .vanished c => s!"component '{c}' vanished during compilation"
  | .noInput .target c => s!"target '{c}' has no input"
  | .noInput _ c => s!"function '{c}' has no input"
  | .targetFeeds c => s!"target '{c}' cannot feed other components"
  | .sourcePattern source => s!"source pattern '{source}': <regex>"

/-! ## Issues -/

/-- One reason why a job does not compile. -/
inductive CompileIssue where
  | invalid (issue : Issue)
  | unknownFunction (component function : String)
  | missingParameter (component function parameter : String)
  | invalidParameter (component parameter reason : String)
  | tooManyInputs (component : String) (kind : Kind) (count : Nat)
  | invalidFilter (component reason : String)
  /-- The text is no job description. -/
  | description
  /-- The script of the job, or a script given as text, cannot be run. -/
  | script (fault : ScriptFault)
  deriving DecidableEq, Repr

def CompileIssue.message : CompileIssue → String
  | .invalid issue => issue.message
  | .unknownFunction c f => s!"component '{c}' uses unknown function '{f}'"
  | .missingParameter c f p => s!"function '{f}' in component '{c}' requires parameter '{p}'"
  | .invalidParameter c p r => s!"parameter '{p}' of component '{c}' is invalid: {r}"
  | .tooManyInputs c k n => s!"{k.word} component '{c}' reads {n} inputs, expected one"
  | .invalidFilter c r => s!"filter on component '{c}' cannot be parsed: {r}"
  | .description => "malformed job description: <json>"
  | .script fault => s!"malformed morph script: {fault.message}"

/-- All reasons why a job does not compile. -/
structure CompileError where
  issues : List CompileIssue
  deriving DecidableEq, Repr

def CompileError.message (e : CompileError) : String :=
  s!"compilation failed with {e.issues.length} issue(s)" ++
    (if e.issues.isEmpty then "" else ": ") ++
    Text.glue "; " (e.issues.map CompileIssue.message)

def Job.load (s : String) : Except CompileError Job :=
  match Job.Description.ofText? s with
  | none => .error ⟨[.description]⟩
  | some d => d.job.mapError fun issues => ⟨issues.map .invalid⟩

end Recast
