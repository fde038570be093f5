import Recast.Toml.Text

/-!
# Printer — configuration texts

A configuration text is written as sections: a header with the name of a table, and a field on each
line below it, with an empty line between any two sections.  A list of two texts or more has a line
for each of them.
-/

namespace Recast
namespace Toml

/-- What is written under a key. -/
inductive Field where
  | text (s : String)
  | number (n : Nat)
  | flag (b : Bool)
  | texts (ss : List String)
  deriving DecidableEq, Repr

structure Section where
  /-- The keys that lead to the table. -/
  path : List String
  /-- Whether it is one of several tables of this name. -/
  repeated : Bool
  fields : List (String × Field)
  deriving DecidableEq, Repr

def Field.chars : Field → List Char
  | .text s => writeText s.toList
  | .number n => Nat.toDigits 10 n
  | .flag true => ['t', 'r', 'u', 'e']
  | .flag false => ['f', 'a', 'l', 's', 'e']
  | .texts [] => ['[', ']']
  | .texts [s] => '[' :: writeText s.toList ++ [']']
  | .texts ss =>
      '[' :: '\n' :: ss.flatMap (fun s => [' ', ' ', ' ', ' '] ++ writeText s.toList ++ [',', '\n']) ++
        [']']

namespace Section

/-- The keys of a header with dots between them. -/
def pathChars : List String → List Char
  | [] => []
  | [k] => k.toList
  | k :: rest => k.toList ++ '.' :: pathChars rest

def headerChars (s : Section) : List Char :=
  if s.repeated then '[' :: '[' :: pathChars s.path ++ [']', ']', '\n']
  else '[' :: pathChars s.path ++ [']', '\n']

def chars (s : Section) : List Char :=
  s.headerChars ++ s.fields.flatMap fun f => f.1.toList ++ [' ', '=', ' '] ++ f.2.chars ++ ['\n']

def allChars : List Section → List Char
  | [] => []
  | [s] => s.chars
  | s :: rest => s.chars ++ '\n' :: allChars rest

end Section

def ofSections (ss : List Section) : String :=
  String.ofList (Section.allChars ss)

end Toml
end Recast
