import Recast.Markup.Content

/-!
# Outline — documents laid out over lines

An `Outline` is written with each tag on a line of its own, two blanks deeper than the element
around it; a text stands between its tags on one line.
-/

namespace Recast
namespace Markup

/-- An element that is to be written. -/
inductive Outline where
  /-- An element without content, as one tag. -/
  | leaf (name : String) (attributes : List (String × String))
  /-- A text between two tags. -/
  | line (name : String) (text : String)
  /-- Elements between two tags. -/
  | block (name : String) (attributes : List (String × String)) (children : List Outline)

namespace Outline

def tagChars (name : String) (as : List (String × String)) : List Char :=
  name.toList ++ as.flatMap fun a =>
    ' ' :: a.1.toList ++ ['=', '"'] ++ escaped a.2 ++ ['"']

def stopChars (name : String) : List Char :=
  ['<', '/'] ++ name.toList ++ ['>']

def newline (level : Nat) : List Char :=
  '\n' :: List.replicate (2 * level) ' '

mutual
/-- An element from the line break in front of it on. -/
def chars (level : Nat) : Outline → List Char
  | .leaf name as => newline level ++ '<' :: tagChars name as ++ ['/', '>']
  | .line name text => newline level ++ '<' :: tagChars name [] ++ '>' :: escaped text ++ stopChars name
  | .block name as children =>
      newline level ++ '<' :: tagChars name as ++ '>' :: charsAll (level + 1) children ++
        newline level ++ stopChars name

def charsAll (level : Nat) : List Outline → List Char
  | [] => []
  | o :: rest => chars level o ++ charsAll level rest
end

def declaration : String := "<?xml version=\"1.0\" encoding=\"UTF-8\"?>"

def document (root : Outline) : String :=
  String.ofList (declaration.toList ++ root.chars 0)

end Outline
end Markup
end Recast
