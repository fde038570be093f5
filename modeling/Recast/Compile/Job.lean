import Recast.Compile.Draft
import Recast.Morph.Program
import Recast.Script.Writer

/-!
# Job — from jobs to scripts

`Job.compile` gives the script of a job, or all reasons why there is none.  A script that cannot be
run, since the arguments of a function are wrong, is a reason too.
-/

namespace Recast

/-- A single fault of a script as the reason for refusing it. -/
def CompileError.ofFault (f : ScriptFault) : CompileError :=
  ⟨[.script f]⟩

namespace Job

def compile (j : Job) : Except CompileError Script :=
  match j.compileIssues with
  | [] => do
      let s ← j.draft.mapError .ofFault
      -- the arguments of functions are only read here
      let _ ← Morph.ofScript s
      return s
  | issues => .error ⟨issues⟩

def compileText (s : String) : Except CompileError Script := do
  (← load s).compile

end Job
end Recast
