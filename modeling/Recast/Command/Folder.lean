import Recast.Command.Answer
import Recast.OrderedMap
import Recast.Text.Parts

/-!
# Folder — files by their names

A folder holds texts under paths.  A path leads from the folder downwards; it may go back up, but not
out of the folder.  A folder inside another one is there as long as it holds a file.

* `Folder.read?`, `Folder.write?` — the files under paths;
* `Folder.carryOut` — a command line at work in a folder.
-/

namespace Recast

/-- The texts of files by the parts of their paths. -/
structure Folder where
  files : OrderedMap (List String) String

namespace Folder

def empty : Folder := ⟨.empty⟩

def isFolder (f : Folder) (path : List String) : Bool :=
  path.isEmpty || f.files.keys.any fun k => path.isPrefixOf k && path.length < k.length

/-- Follow the parts of a path from a place in the folder. -/
def follow? (f : Folder) (here : List String) : List String → Option (List String)
  | [] => some here
  | p :: rest =>
      -- a slash may stand only behind a folder
      if p = "" ∨ p = "." then (if f.isFolder here then f.follow? here rest else none)
      else if p = ".." then
        (if f.isFolder here ∧ here ≠ [] then f.follow? here.dropLast rest else none)
      else f.follow? (here ++ [p]) rest

/-- The parts of the path that a name leads to. -/
def locate? (f : Folder) (name : String) : Option (List String) :=
  if name = "" ∨ name.toList.head? = some '/' then none
  else f.follow? [] (Text.parts '/' name)

def read? (f : Folder) (name : String) : Option String :=
  (f.locate? name).bind f.files.get?

def write? (f : Folder) (name text : String) : Option Folder :=
  match f.locate? name with
  | none => none
  | some path =>
      if f.isFolder path ∨ !f.isFolder path.dropLast then none
      else some ⟨f.files.put path text⟩

/-- Put a file in its place, whether or not the folder for it is there. -/
def place (f : Folder) (name text : String) : Folder :=
  ⟨f.files.put ((Text.parts '/' name).filter fun p => p ≠ "" ∧ p ≠ ".") text⟩

/-- Answer a command line in a folder, and write the file of the answer, if it has one. -/
def carryOut (f : Folder) (args : List String) (env : Environment) : Answer × Folder :=
  let a := Answer.ofArgs args env f.read?
  match a.document with
  | none => (a, f)
  | some (name, text) =>
      match f.write? name text with
      | some g => (a, g)
      | none => (.unwritten name, f)

end Folder
end Recast
