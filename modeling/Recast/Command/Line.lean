/-!
# Line — command lines

A command line names a command, with options before and behind the name.  An option has a long name,
and some have a short one.  A value stands behind its option, or in the same word; short options
without values may share one word.  Behind two dashes nothing is an option.

* `Command` — what is asked for;
* `Command.ofArgs` — read a command line; `Command.Stop` is what it may come to instead.

An option is given once at most on either side of the name of the command.  Some options may stand on
both sides: then the later one counts.
-/

namespace Recast

/-- Which program a command works with. -/
inductive ProgramSource where
  /-- None: the events of the document are taken as they are. -/
  | identity
  | job (path : String)
  | script (path : String)
  deriving DecidableEq, Repr

inductive Command where
  /-- Write the script of a job. -/
  | compile (job : String) (output : Option String)
  /-- List what is wrong with a job. -/
  | validate (job : String)
  /-- Turn documents into a model. -/
  | run (program : ProgramSource) (inputs : List String) (format : Option String)
      (raw store : Bool)
  /-- List the paths of attributes of a model. -/
  | schema (program : ProgramSource) (input : String) (format : Option String)
  deriving DecidableEq, Repr

/-- A command and the file with the settings for it. -/
structure Request where
  config : Option String
  command : Command
  deriving DecidableEq, Repr

namespace Command

/-! ## Options -/

inductive Flag where
  | logLevel
  | verbose
  | config
  | output
  | job
  | script
  | format
  | raw
  | store
  | help
  | version
  deriving DecidableEq, Repr

namespace Flag

def long : Flag → String
  | .logLevel => "log-level"
  | .verbose => "verbose"
  | .config => "config"
  | .output => "output"
  | .job => "job"
  | .script => "script"
  | .format => "format"
  | .raw => "raw"
  | .store => "store"
  | .help => "help"
  | .version => "version"

def short? : Flag → Option Char
  | .logLevel => some 'l'
  | .verbose => some 'v'
  | .config => some 'C'
  | .output => some 'o'
  | .format => some 'f'
  | .help => some 'h'
  | .version => some 'V'
  | .job | .script | .raw | .store => none

def takesValue : Flag → Bool
  | .logLevel | .config | .output | .job | .script | .format => true
  | .verbose | .raw | .store | .help | .version => false

/-- Whether an option may have a value. -/
def accepts (f : Flag) (value : String) : Bool :=
  match f with
  | .logLevel => ["off", "error", "warn", "info", "debug", "trace"].contains value
  | .format => ["oai", "csv", "json", "auto"].contains value
  | .config | .output | .job | .script => value ≠ ""
  | .verbose | .raw | .store | .help | .version => true

end Flag

inductive Verb where
  | compile
  | validate
  | run
  | schema
  deriving DecidableEq, Repr

namespace Verb

def ofWord? : String → Option Verb
  | "compile" => some .compile
  | "validate" => some .validate
  | "run" => some .run
  | "schema" => some .schema
  | _ => none

def flags (v : Verb) : List Flag :=
  let common := [Flag.logLevel, .verbose, .config, .help]
  match v with
  | .compile => .output :: common
  | .validate => common
  | .run => [.job, .script, .format, .raw, .store] ++ common
  | .schema => [.job, .script, .format] ++ common

end Verb

/-- The options in front of the name of a command. -/
def frontFlags : List Flag :=
  [.logLevel, .verbose, .config, .help, .version]

/-! ## Reading words -/

/-- What a command line comes to unless it is a request. -/
inductive Stop where
  /-- It asks how commands are written. -/
  | help
  | version
  /-- It cannot be understood. -/
  | misuse
  deriving DecidableEq, Repr

/-- What has been read: the options with their values, and all other words. -/
structure Reading where
  options : List (Flag × String)
  words : List String
  deriving DecidableEq, Repr

namespace Reading

def empty : Reading := ⟨[], []⟩

def value? (r : Reading) (f : Flag) : Option String := r.options.lookup f

def has (r : Reading) (f : Flag) : Bool := (r.value? f).isSome

def add (r : Reading) (f : Flag) (value : String) : Except Stop Reading :=
  -- an option is given once
  if r.has f || !f.accepts value then .error .misuse
  else match f with
    | .help => .error .help
    | .version => .error .version
    | _ => .ok { r with options := r.options ++ [(f, value)] }

end Reading

/-- Read the short options in one word; the last one may still wait for its value. -/
def shorts (flags : List Flag) : List Char → Reading → Except Stop (Reading × Option Flag)
  | [], r => .ok (r, none)
  | c :: rest, r =>
      match flags.find? fun f => f.short? = some c with
      | none => .error .misuse
      | some f =>
          if !f.takesValue then (r.add f "").bind (shorts flags rest)
          else match rest with
            | [] => .ok (r, some f)
            | '=' :: value => (r.add f (String.ofList value)).map fun r => (r, none)
            | value => (r.add f (String.ofList value)).map fun r => (r, none)

/-- Read a long option; it may still wait for its value. -/
def longOption (flags : List Flag) (cs : List Char) (r : Reading) :
    Except Stop (Reading × Option Flag) :=
  let name := String.ofList (cs.takeWhile (· ≠ '='))
  match flags.find? fun f => f.long = name, cs.dropWhile (· ≠ '=') with
  | none, _ => .error .misuse
  | some f, [] => if f.takesValue then .ok (r, some f) else (r.add f "").map fun r => (r, none)
  | some f, _ :: value =>
      if f.takesValue then (r.add f (String.ofList value)).map fun r => (r, none)
      else .error .misuse

/-- Whether a word is an option, or the two dashes behind which there are none. -/
def isOption (word : String) : Bool :=
  match word.toList with
  | '-' :: _ :: _ => true
  | _ => false

def option (flags : List Flag) (word : String) (r : Reading) :
    Except Stop (Reading × Option Flag) :=
  match word.toList with
  | '-' :: '-' :: cs => longOption flags cs r
  | cs => shorts flags cs.tail r

/-- Read words up to the end, or up to the first that is no option if `front`; `waiting` is an option
without its value.  The second part is what has not been read. -/
def words (flags : List Flag) (front : Bool) :
    List String → Option Flag → Reading → Except Stop (Reading × List String)
  | [], none, r => .ok (r, [])
  | [], some _, _ => .error .misuse
  | w :: rest, some f, r =>
      -- the value of an option must not look like one
      if isOption w then .error .misuse
      else (r.add f w).bind (words flags front rest none)
  | w :: rest, none, r =>
      if w = "--" then
        (if front then .error .misuse else .ok ({ r with words := r.words ++ rest }, []))
      else if isOption w then
        (option flags w r).bind fun (r, waiting) => words flags front rest waiting r
      else if front then .ok (r, w :: rest)
      else words flags front rest none { r with words := r.words ++ [w] }

/-! ## Requests -/

/-- The program that options name: one at most. -/
def programOf (r : Reading) : Except Stop ProgramSource :=
  match r.value? .job, r.value? .script with
  | none, none => .ok .identity
  | some path, none => .ok (.job path)
  | none, some path => .ok (.script path)
  | some _, some _ => .error .misuse

def ofReading (v : Verb) (r : Reading) : Except Stop Command := do
  if r.words.contains "" then .error .misuse
  let program ← programOf r
  match v, r.words with
  | .compile, [job] => return .compile job (r.value? .output)
  | .validate, [job] => return .validate job
  | .run, input :: more =>
      return .run program (input :: more) (r.value? .format) (r.has .raw) (r.has .store)
  | .schema, [input] => return .schema program input (r.value? .format)
  | _, _ => .error .misuse

def ofArgs (args : List String) : Except Stop Request := do
  let (front, rest) ← words frontFlags true args none .empty
  match rest with
  | [] => .error .misuse
  | name :: rest =>
      match Verb.ofWord? name with
      | some v =>
          let (r, _) ← words v.flags false rest none .empty
          return ⟨(r.value? .config).or (front.value? .config), ← ofReading v r⟩
      | none =>
          if name = "help" ∧ rest.all (fun w => w = "help" ∨ (Verb.ofWord? w).isSome) then
            .error .help
          else .error .misuse

end Command
end Recast
