import Recast.Pattern.Matcher
import Recast.Text.Count

/-!
# Template — replacement texts

A template refers to the groups of a match: `$name` takes the longest run of letters, digits and
underscores, a name in braces after the dollar sign ends at the brace, and two dollar signs stand
for one.  A name that is a number means the group with this number.  Groups that are unknown or
took no part in the match stand for nothing.

* `Template.parts` — the texts and references of a template;
* `Pattern.expand` — a template filled in for a match;
* `Pattern.replaceAll` — a text with all matches replaced.
-/

namespace Recast

inductive Template.Part where
  | char (c : Char)
  | number (n : Nat)
  | name (n : String)
  deriving DecidableEq, Repr

namespace Template

/-- The characters of names that stand without braces. -/
def isNameChar (c : Char) : Bool :=
  c.isAlphanum || c = '_'

/-- A reference by number if the text is one, else by name. -/
def reference (cs : List Char) : Part :=
  match Count.read Count.max32 cs with
  | .ok n => .number n
  | .error _ => .name (String.ofList cs)

theorem length_dropWhile_le (p : Char → Bool) (cs : List Char) :
    (cs.dropWhile p).length ≤ cs.length :=
  (List.dropWhile_sublist p).length_le

def parts : List Char → List Part
  | [] => []
  | '$' :: '$' :: rest => .char '$' :: parts rest
  | '$' :: '{' :: rest =>
      match _h : rest.dropWhile (· != '}') with
      | [] => .char '$' :: .char '{' :: parts rest
      | _ :: tail => reference (rest.takeWhile (· != '}')) :: parts tail
  | '$' :: rest =>
      if (rest.takeWhile isNameChar).isEmpty then .char '$' :: parts rest
      else reference (rest.takeWhile isNameChar) :: parts (rest.dropWhile isNameChar)
  | c :: rest => .char c :: parts rest
termination_by cs => cs.length
decreasing_by
  all_goals simp only [List.length_cons]
  · omega
  · omega
  · have := length_dropWhile_le (· != '}') rest
    rw [_h, List.length_cons] at this
    omega
  · omega
  · have := length_dropWhile_le isNameChar rest
    omega
  · omega

end Template

namespace Pattern

/-- The characters of a text between two positions. -/
def slice (cs : List Char) (a b : Nat) : List Char :=
  (cs.drop a).take (b - a)

def groupChars (slots : Slots) (cs : List Char) (i : Nat) : List Char :=
  match group? slots i with
  | some (a, b) => slice cs a b
  | none => []

def index? (p : Pattern) (name : String) : Option Nat :=
  if name == "" then none else p.names.lookup name

/-- Fill in the parts of a template for a match in a text. -/
def expand (p : Pattern) (slots : Slots) (cs : List Char) (ts : List Template.Part) : List Char :=
  ts.flatMap fun
    | .char c => [c]
    | .number n => groupChars slots cs n
    | .name n =>
        match p.index? n with
        | some i => groupChars slots cs i
        | none => []

/-- Replace matches that are given from left to right, from a position on. -/
def replaceMatches (p : Pattern) (cs : List Char) (ts : List Template.Part) (index : Nat) :
    List Slots → List Char
  | [] => cs.drop index
  | m :: rest =>
      let (a, b) := (group? m 0).getD (index, index)
      slice cs index a ++ p.expand m cs ts ++ replaceMatches p cs ts b rest

def replaceAll (p : Pattern) (ts : List Template.Part) (s : String) : String :=
  String.ofList (p.replaceMatches s.toList ts 0 (p.findAll s))

/-- The template filled in for the first match in a text. -/
def expandFirst? (p : Pattern) (ts : List Template.Part) (s : String) : Option String :=
  (p.find? s).map fun m => String.ofList (p.expand m s.toList ts)

def firstMatch? (p : Pattern) (s : String) : Option String :=
  (p.find? s).map fun m => String.ofList (groupChars m s.toList 0)

end Pattern
end Recast
