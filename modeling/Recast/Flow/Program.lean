import Recast.Compile.Job
import Recast.Morph.Run

/-!
# Program — what a flow does with events

A program either hands every event on or runs a script.  A script always comes from its text, also
that of a job, which is compiled and written first.
-/

namespace Recast

/-- What a flow does with events. -/
inductive Program where
  /-- Every event is handed on. -/
  | identity
  /-- A script is run. -/
  | morph (script : Script) (m : Morph) (built : Morph.ofScript script = .ok m)

namespace Program

def ofScript (s : Script) : Except CompileError Program :=
  match h : Morph.ofScript s with
  | .ok m => .ok (.morph s m h)
  | .error e => .error e

def ofText (t : String) : Except CompileError Program :=
  match Script.ofText t with
  | .ok s => ofScript s
  | .error e => .error (.ofFault (.unreadable e))

def ofJob (j : Job) : Except CompileError Program := do
  ofText (← j.compile).toText

def script? : Program → Option Script
  | .identity => none
  | .morph s _ _ => some s

/-! ## Events -/

def initial : Program → Morph.State
  | .identity => ⟨[], [], []⟩
  | .morph _ m _ => m.initial

def step (p : Program) (e : Event) (s : Morph.State) : Outcome Morph.State :=
  match p with
  | .identity => .hand s e
  | .morph _ m _ => m.step e s

def run (p : Program) (es : List Event) : Outcome Morph.State :=
  Outcome.each p.step es p.initial

end Program
end Recast
