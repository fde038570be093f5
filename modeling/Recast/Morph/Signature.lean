import Recast.Text.Count
import Recast.Text.Parts

/-!
# Signature — what functions and collectors ask for

`Signature.function?` and `Signature.collector?` know the functions and collectors there are, with
the attributes they require and those that name lookup tables.
-/

namespace Recast

/-- The attributes of a function or collector. -/
structure Signature where
  name : String
  required : List String
  /-- The attributes that name a lookup table. -/
  tables : List String
  deriving DecidableEq, Repr

namespace Signature

def functions : List Signature :=
  [⟨"trim", [], []⟩, ⟨"case", ["to"], []⟩, ⟨"constant", ["value"], []⟩, ⟨"compose", [], []⟩,
   ⟨"replace", ["pattern", "with"], []⟩, ⟨"regexp", ["match"], []⟩, ⟨"substring", [], []⟩,
   ⟨"lookup", ["in"], ["in"]⟩, ⟨"whitelist", ["map"], ["map"]⟩, ⟨"blacklist", ["map"], ["map"]⟩,
   ⟨"setreplace", ["map"], ["map"]⟩, ⟨"occurrence", ["only"], []⟩, ⟨"equals", ["string"], []⟩,
   ⟨"not-equals", ["string"], []⟩, ⟨"unique", [], []⟩]

def collectors : List Signature :=
  [⟨"concat", [], []⟩, ⟨"combine", ["value"], []⟩, ⟨"choose", [], []⟩]

def function? (name : String) : Option Signature :=
  functions.find? fun s => s.name = name

def collector? (name : String) : Option Signature :=
  collectors.find? fun s => s.name = name

def isTable (s : Signature) (attribute_ : String) : Bool :=
  attribute_ ∈ s.tables

/-- The names of all functions and collectors in alphabetical order. -/
def overview : String :=
  let names := fun (ss : List Signature) =>
    Text.quotedList ((ss.map Signature.name).mergeSort fun a b => a ≤ b)
  s!"FunctionRegistry \x7b functions: {names functions}, collectors: {names collectors} \x7d"

end Signature

/-! ## Faults of arguments -/

/-- Why a function or collector cannot be built. -/
inductive ArgumentError where
  | unknownFunction (name : String)
  | unknownCollector (kind : String)
  | missing (function parameter : String)
  | unknownMap (function table : String)
  | invalidCount (function parameter : String) (cause : CountError)
  | invalidPattern (function : String)
  /-- A case that is neither of the two. -/
  | invalidCase (text : String)
  | zeroOccurrence
  /-- A reset that is no truth value. -/
  | invalidReset (text : String)
  deriving DecidableEq, Repr

def ArgumentError.message : ArgumentError → String
  | .unknownFunction name => s!"unknown function '{name}'"
  | .unknownCollector kind => s!"unknown collector '{kind}'"
  | .missing f p => s!"{f} requires '{p}'"
  | .unknownMap f t => s!"{f}: unknown map '{t}'"
  | .invalidCount f p cause => s!"{f}: invalid '{p}': {cause.message}"
  | .invalidPattern f => s!"{f}: invalid pattern: <regex>"
  | .invalidCase text => s!"case: 'to' must be upper or lower, got '{text}'"
  | .zeroOccurrence => "occurrence: 'only' counts from 1"
  | .invalidReset text => s!"combine: 'reset' must be true or false, got '{text}'"

end Recast
