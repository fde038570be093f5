import Recast.Morph.Signature
import Recast.Pattern.Template
import Recast.Script.Basic
import Recast.Text.Case

/-!
# Function — what happens to single values

A `Function` turns a value into another one or drops it.  Some functions remember the values of the
record they have seen; what they remember is their `Memory`, and it is empty at the start of every
record.

* `Function.ofCall` — the function of a call, its attributes read and its tables looked up;
* `Function.apply` — one value;
* `Function.reset` — another record.
-/

namespace Recast

/-- A function whose attributes have been read. -/
inductive Function where
  | trim
  | case (capitals : Bool)
  | constant (value : String)
  | compose (before after : String)
  | replace (p : Pattern) (by_ : List Template.Part)
  | extract (p : Pattern) (format : Option (List Template.Part))
  | substring (start : Nat) (stop : Option Nat)
  | lookup (table : OrderedMap String String) (default_ : Option String)
  | listed (keys : List String) (keep : Bool)
  | substitute (pairs : List (List Char × List Char))
  | occurrence (only : Nat)
  | equals (s : String) (negated : Bool)
  | unique

/-- What a function remembers of a record. -/
structure Function.Memory where
  /-- The number of values so far. -/
  count : Nat
  /-- The distinct values so far. -/
  seen : List String
  deriving DecidableEq, Repr

namespace Function

def Memory.fresh : Memory := ⟨0, []⟩

/-! ## Reading calls -/

def required (f : String) (attributes : OrderedMap String String) (p : String) :
    Except ArgumentError String :=
  match attributes.get? p with
  | some v => .ok v
  | none => .error (.missing f p)

def pattern (f : String) (attributes : OrderedMap String String) (p : String) :
    Except ArgumentError Pattern := do
  match Pattern.ofText? (← required f attributes p) with
  | some r => .ok r
  | none => .error (.invalidPattern f)

/-- The count of an attribute, if it is there; blanks around it do not count. -/
def count? (f : String) (attributes : OrderedMap String String) (p : String) :
    Except ArgumentError (Option Nat) :=
  match attributes.get? p with
  | none => .ok none
  | some v =>
      match Count.read Count.max64 (Text.trim v).toList with
      | .ok n => .ok (some n)
      | .error e => .error (.invalidCount f p e)

def table (f : String) (attributes : OrderedMap String String)
    (maps : OrderedMap String Script.Table) (p : String) :
    Except ArgumentError (OrderedMap String String) := do
  let name ← required f attributes p
  match maps.get? name with
  | some t => .ok t.toMap
  | none => .error (.unknownMap f name)

/-- The first required attribute that is missing is a fault. -/
def checkRequired (s : Signature) (attributes : OrderedMap String String) :
    Except ArgumentError Unit :=
  match s.required.find? fun p => (attributes.get? p).isNone with
  | some p => .error (.missing s.name p)
  | none => .ok ()

/-- Longer keys first, keys of one length in their order; the empty key never applies. -/
def substitutions (t : OrderedMap String String) : List (List Char × List Char) :=
  let pairs := (t.toList.filter fun p => p.1 != "").mergeSort fun a b =>
    b.1.utf8ByteSize < a.1.utf8ByteSize || (a.1.utf8ByteSize == b.1.utf8ByteSize && a.1 ≤ b.1)
  pairs.map fun p => (p.1.toList, p.2.toList)

def ofCall (maps : OrderedMap String Script.Table) (call : Script.Call) :
    Except ArgumentError Function := do
  let f := call.name
  let as := call.attributes
  let some s := Signature.function? f | throw (.unknownFunction f)
  checkRequired s as
  match f with
  | "trim" => return .trim
  | "case" =>
      match Kind.lowered (← required f as "to") with
      | "upper" => return .case true
      | "lower" => return .case false
      | other => throw (.invalidCase other)
  | "constant" => return .constant (← required f as "value")
  | "compose" => return .compose ((as.get? "prefix").getD "") ((as.get? "postfix").getD "")
  | "replace" =>
      let p ← pattern f as "pattern"
      return .replace p (Template.parts (← required f as "with").toList)
  | "regexp" =>
      let p ← pattern f as "match"
      return .extract p ((as.get? "format").map fun t => Template.parts t.toList)
  | "substring" =>
      let start ← count? f as "start"
      return .substring (start.getD 0) (← count? f as "end")
  | "lookup" => return .lookup (← table f as maps "in") (as.get? "default")
  | "whitelist" => return .listed (← table f as maps "map").keys true
  | "blacklist" => return .listed (← table f as maps "map").keys false
  | "setreplace" => return .substitute (substitutions (← table f as maps "map"))
  | "occurrence" =>
      match (← count? f as "only").getD 1 with
      | 0 => throw .zeroOccurrence
      | n => return .occurrence n
  | "equals" => return .equals (← required f as "string") false
  | "not-equals" => return .equals (← required f as "string") true
  | "unique" => return .unique
  | _ => throw (.unknownFunction f)

/-! ## Applying functions -/

/-- Replace keys from left to right, the first key in the list that fits at each place; `skip`
characters belong to a key that has been replaced. -/
def substituteChars (pairs : List (List Char × List Char)) (skip : Nat) : List Char → List Char
  | [] => []
  | c :: rest =>
      match skip with
      | n + 1 => substituteChars pairs n rest
      | 0 =>
          match pairs.find? fun p => p.1.isPrefixOf (c :: rest) with
          | some p => p.2 ++ substituteChars pairs (p.1.length - 1) rest
          | none => c :: substituteChars pairs 0 rest

/-- The characters from one place up to another one. -/
def substringOf (start : Nat) (stop : Option Nat) (s : String) : String :=
  let cs := s.toList.drop start
  String.ofList (match stop with
    | none => cs
    | some n => cs.take (n - start))

/-- Apply a function to a value: what becomes of the value, and what is remembered. -/
def apply (f : Function) (m : Memory) (value : String) : Option String × Memory :=
  match f with
  | .trim => (some (Text.trim value), m)
  | .case capitals => (some (if capitals then Text.upper value else Text.lower value), m)
  | .constant v => (some v, m)
  | .compose before after => (some (before ++ value ++ after), m)
  | .replace p by_ => (some (p.replaceAll by_ value), m)
  | .extract p none => (p.firstMatch? value, m)
  | .extract p (some format) => (p.expandFirst? format value, m)
  | .substring start stop => (some (substringOf start stop value), m)
  | .lookup t default_ => ((t.get? value).or default_, m)
  | .listed keys keep => (if keys.contains value == keep then some value else none, m)
  | .substitute pairs => (some (String.ofList (substituteChars pairs 0 value.toList)), m)
  | .occurrence only =>
      (if m.count + 1 = only then some value else none, { m with count := m.count + 1 })
  | .equals s negated => (if (value == s) != negated then some value else none, m)
  | .unique =>
      if value ∈ m.seen then (none, m) else (some value, { m with seen := value :: m.seen })

/-- Clear what a function has counted or seen; the other functions have nothing to clear. -/
def reset (f : Function) (m : Memory) : Memory :=
  match f with
  | .occurrence _ => { m with count := 0 }
  | .unique => { m with seen := [] }
  | _ => m

end Function
end Recast
