import Recast.Flow.Error
import Recast.Flow.Program
import Recast.Graph.Encoder
import Recast.Skip

/-!
# Flow — from documents to models

A flow decodes a document, leaves out what its rules say, runs its program over the rest and encodes
what comes out.  An event that is refused by the encoder is met before one that the program refuses
later on, and both before a fault of the document behind them.

* `Flow.pass` — events on their way to the encoder;
* `Flow.apply` — a whole document: the model or the error, and what has been counted on the way.
-/

namespace Recast

/-- How a document becomes a model. -/
structure Flow where
  program : Program
  decoder : Decoder
  dataModel : DataModel
  skip : SkipRules
  /-- The class of the records of a model without a class. -/
  defaultClass : Option String

/-! ## Counts -/

/-- Where events are counted: behind the skip rules or behind the program. -/
inductive Stage where
  | input
  | output
  deriving DecidableEq, Repr

def Stage.word : Stage → String
  | .input => "input"
  | .output => "output"

/-- How many events of a kind have come to a stage. -/
structure Timing where
  stage : Stage
  kind : Event.Kind
  count : Nat
  deriving DecidableEq, Repr

def Timing.ofEvents (stage : Stage) (es : List Event) : List Timing :=
  (Event.Kind.all.map fun k => ⟨stage, k, es.countP fun e => e.kind = k⟩).filter fun t => 0 < t.count

namespace Flow

/-! ## Events -/

/-- What becomes of the events of a document. -/
structure Passage where
  /-- What the skip rules let through. -/
  kept : List Event
  /-- What the program hands on. -/
  handed : List Event
  result : Except Refusal Model

/-- Pass events through skip rules, program and encoder. -/
def pass (rules : SkipRules) (p : Program) (d : DataModel) (es : List Event) : Passage :=
  let kept := (rules.run es).out
  let transformed := p.run kept
  -- what the program hands on before it refuses an event reaches the encoder first
  let encoded := Encoder.run d transformed.out
  ⟨kept, transformed.out, match encoded.refusal.or transformed.refusal with
    | some r => .error r
    | none => .ok encoded.state.model⟩

/-- What has been counted, by the stage behind the program first. -/
def Passage.timings (p : Passage) : List Timing :=
  Timing.ofEvents .output p.handed ++ Timing.ofEvents .input p.kept

/-! ## Documents -/

def classify (uri : String) (m : Model) : Except Refusal Model := do
  let m ← m.recordUris.foldlM (fun m record => do
    let s ← (Statement.make? record Name.typePredicate (.resource uri)).mapError .emptyPart
    return m.addStatement record s) m
  return m.setRecordClass uri

/-- Give the records of a model without a class the class of the flow, if it has one. -/
def classed (f : Flow) (m : Model) : Except Refusal Model :=
  match f.defaultClass, m.recordClass with
  | some uri, none => classify uri m
  | _, _ => .ok m

/-- What becomes of a document. -/
structure Applied where
  timings : List Timing
  result : Except FlowError Model

def apply (f : Flow) (input : String) : Applied :=
  let decoded := f.decoder.decode input
  let p := pass f.skip f.program f.dataModel decoded.events
  match p.result, decoded.result with
  | .error r, _ => ⟨[], .error (.transform r)⟩
  -- nothing is told about counts unless the document ends
  | .ok _, .error e => ⟨[], .error (.decode e)⟩
  | .ok m, .ok _ => ⟨p.timings, (f.classed m).mapError .transform⟩

end Flow
end Recast
