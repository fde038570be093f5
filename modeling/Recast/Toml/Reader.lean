import Recast.Toml.Draft
import Recast.Toml.Text
import Recast.Toml.Word

/-!
# Reader — configuration texts

A configuration text consists of lines: headers of tables, and values under keys.  Arrays and inline
tables may go over several lines; they nest up to a limit.

* `Toml.value?` — read a value;
* `Toml.ofText?` — read a whole text; the entries of every table come in the order of their keys.
-/

namespace Recast
namespace Toml

open Draft (Assignment Header)

/-! ## Between the lines -/

def blanks (cs : List Char) : List Char :=
  cs.dropWhile isBlank

def comment : List Char → List Char
  | '#' :: rest => rest.dropWhile isPlain
  | cs => cs

/-- The rest behind the end of a line. -/
def lineEnd? (cs : List Char) : Option (List Char) :=
  match comment (blanks cs) with
  | [] => some []
  | rest => lineBreak? rest

/-- Pass over blanks, comments and line breaks. -/
def trivia (cs : List Char) : List Char :=
  let rest := comment (blanks cs)
  match lineBreak? rest with
  | some after => if _h : after.length < cs.length then trivia after else after
  | none => rest
termination_by cs.length

/-! ## Keys -/

def isKeyChar (c : Char) : Bool :=
  c.isAlphanum || c = '_' || c = '-'

def keyPart? (cs : List Char) : Option (String × List Char) :=
  match lineText? cs with
  | some (k, rest) => some (String.ofList k, rest)
  | none =>
      let k := cs.takeWhile isKeyChar
      if k.isEmpty then none else some (String.ofList k, cs.dropWhile isKeyChar)

/-- Read a key, which may have several parts with dots between them: the parts before the last one,
the last one, and the rest. -/
def key? (cs : List Char) : Option (List String × String × List Char) :=
  match keyPart? cs with
  | none => none
  | some (k, rest) =>
      match blanks rest with
      | '.' :: more =>
          let next := blanks more
          -- a dotted key goes on
          if _h : next.length < cs.length then
            (key? next).map fun (path, last, end_) => (k :: path, last, end_)
          else none
      | end_ => some ([], k, end_)
termination_by cs.length

/-! ## Values -/

/-- How deep arrays and inline tables may nest. -/
def maxDepth : Nat := 80

/-- Read the items of an array, behind its opening bracket. -/
def items? (read? : List Char → Option (Toml × List Char)) (cs : List Char) :
    Option (List Toml × List Char) :=
  match trivia cs with
  | ']' :: rest => some ([], rest)
  | start =>
      match read? start with
      | none => none
      | some (v, after) =>
          match trivia after with
          | ',' :: more =>
              if _h : more.length < cs.length then
                (items? read? more).map fun (vs, rest) => (v :: vs, rest)
              else none
          | ']' :: rest => some ([v], rest)
          | _ => none
termination_by cs.length

def assignment? (read? : List Char → Option (Toml × List Char)) (cs : List Char) :
    Option (Assignment × List Char) := do
  let (path, k, rest) ← key? cs
  match rest with
  | '=' :: more =>
      let (v, rest) ← read? (blanks more)
      return (⟨path, k, v⟩, rest)
  | _ => none

def inlineEntries? (read? : List Char → Option (Toml × List Char)) (cs : List Char) :
    Option (List Assignment × List Char) :=
  match trivia cs with
  | '}' :: rest => some ([], rest)
  | start =>
      match assignment? read? start with
      | none => none
      | some (a, after) =>
          match trivia after with
          | ',' :: more =>
              if _h : more.length < cs.length then
                (inlineEntries? read? more).map fun (as, rest) => (a :: as, rest)
              else none
          | '}' :: rest => some ([a], rest)
          | _ => none
termination_by cs.length

/-- Read a value that is no array and no inline table. -/
def scalar? (cs : List Char) : Option (Toml × List Char) :=
  match quoted? cs with
  | some (s, rest) => some (.string (String.ofList s), rest)
  | none =>
      let (word, rest) := cutWord cs
      (word? word).map fun v => (v, rest)

/-- Read a value that nests so deep at most. -/
def value? : Nat → List Char → Option (Toml × List Char)
  | 0, cs => scalar? cs
  | depth + 1, '[' :: rest =>
      (items? (value? depth) rest).map fun (vs, rest) => (.array vs, rest)
  | depth + 1, '{' :: rest => do
      let (as, rest) ← inlineEntries? (value? depth) rest
      let es ← Draft.assignAll [] as
      return (Draft.finish (.table .header es), rest)
  | _ + 1, cs => scalar? cs

/-! ## Lines -/

/-- A line that says something. -/
inductive Line where
  | header (h : Header)
  | assignment (a : Assignment)

def header? (cs : List Char) : Option (Header × List Char) := do
  let (repeated, start) := match cs with
    | '[' :: more => (true, more)
    | _ => (false, cs)
  let (path, k, rest) ← key? (blanks start)
  match repeated, rest with
  | true, ']' :: ']' :: rest => return (⟨path, k, true⟩, rest)
  | false, ']' :: rest => return (⟨path, k, false⟩, rest)
  | _, _ => none

/-- Read a line up to its end. -/
def line? (cs : List Char) : Option (Line × List Char) :=
  match cs with
  | '[' :: rest => do
      let (h, rest) ← header? rest
      return (.header h, ← lineEnd? rest)
  | _ => do
      let (a, rest) ← assignment? (value? maxDepth) cs
      return (.assignment a, ← lineEnd? rest)

def lines? (cs : List Char) : Option (List Line) :=
  match trivia cs with
  | [] => some []
  | start =>
      match line? start with
      | none => none
      | some (l, rest) =>
          if _h : rest.length < cs.length then (lines? rest).map (l :: ·) else none
termination_by cs.length

/-- The values in front of the first header, and those behind each header. -/
def sections : List Line → List Assignment × List (Header × List Assignment)
  | [] => ([], [])
  | .assignment a :: rest =>
      let (first, others) := sections rest
      (a :: first, others)
  | .header h :: rest =>
      let (body, others) := sections rest
      ([], (h, body) :: others)

/-- Read a configuration text; a byte order mark in front of it does not count. -/
def ofText? (s : String) : Option Toml := do
  let cs := match s.toList with
    | '\uFEFF' :: rest => rest
    | cs => cs
  let (first, others) := sections (← lines? cs)
  let root ← Draft.assignAll [] first
  let es ← others.foldlM (fun es (h, body) => Draft.fill es h body) root
  return Draft.finish (.table .header es)

end Toml
end Recast
