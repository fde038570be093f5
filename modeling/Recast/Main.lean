import Recast.Command.Answer

/-!
# Main — the command

Reads the files and variables that a request names, and prints what the request comes to.
-/

namespace Recast

def readIfThere (path : String) : IO (Option String) := do
  try return some (← IO.FS.readFile path)
  catch _ => return none

def readVariables (names : List String) : IO (List (String × String)) := do
  let found ← names.mapM fun n => return (n, ← IO.getEnv n)
  return found.filterMap fun (n, v) => v.map fun v => (n, v)

def answerRequest (r : Request) : IO Answer := do
  let texts ← r.files.mapM fun path => return (path, ← readIfThere path)
  let files : Files := fun path => (texts.lookup path).join
  let names := ((r.config.bind files).bind Toml.ofText?).elim [] Toml.references
  let env ← readVariables names
  return r.answer (fun n => env.lookup n) files

/-- Write the file of an answer; the answer is another one if that is not possible. -/
def deliverFile (a : Answer) : IO Answer := do
  match a.document with
  | none => return a
  | some (name, text) =>
      try
        IO.FS.writeFile name text
        return a
      catch _ => return .unwritten name

end Recast

open Recast

def main (args : List String) : IO UInt32 := do
  let a ← match Command.ofArgs args with
    | .ok r => deliverFile (← answerRequest r)
    | .error stop => pure (Answer.ofStop stop)
  IO.print a.text
  match a.error with
  | some message => IO.eprintln s!"Error: {message}"
  | none => if a.exit = 2 then IO.eprint Answer.usage
  return a.exit
