import Recast.Graph.Statement

/-!
# Event — streams of records

A record is a stream of events: its start with its id, entities that hold entities and literals,
and its end.

* `Event` — what a stage receives and hands on;
* `Refusal` — why a stage refuses an event;
* `Outcome` — what becomes of an event: the new state of the stage, the events handed on, and the
  refusal with which it stopped, if it did.
-/

namespace Recast

inductive Event where
  | startRecord (id : String)
  | endRecord
  | startEntity (name : String)
  | endEntity
  | literal (name value : String)
  deriving DecidableEq, Repr

inductive Event.Kind where
  | endEntity
  | endRecord
  | literal
  | startEntity
  | startRecord
  deriving DecidableEq, Repr

namespace Event

def Kind.word : Kind → String
  | .endEntity => "end_entity"
  | .endRecord => "end_record"
  | .literal => "literal"
  | .startEntity => "start_entity"
  | .startRecord => "start_record"

/-- All kinds, in the alphabetical order of their words. -/
def Kind.all : List Kind :=
  [.endEntity, .endRecord, .literal, .startEntity, .startRecord]

def kind : Event → Kind
  | .startRecord _ => .startRecord
  | .endRecord => .endRecord
  | .startEntity _ => .startEntity
  | .endEntity => .endEntity
  | .literal .. => .literal

end Event

/-! ## Refusals -/

inductive Refusal where
  /-- A record starts inside another one. -/
  | recordOpen
  /-- An event of this kind stands outside all records. -/
  | noRecord (kind : Event.Kind)
  /-- A record ends inside this number of entities. -/
  | entitiesOpen (count : Nat)
  /-- An entity ends that has not started. -/
  | noEntity
  /-- The name of a literal has no attribute in it. -/
  | emptyName (name : String)
  /-- A variable feeds variables too often. -/
  | tooDeep (variable_ : String)
  /-- A statement has an empty part. -/
  | emptyPart (part : Statement.Part)
  deriving DecidableEq, Repr

namespace Refusal

/-- How often a variable may feed further variables. -/
def maxDepth : Nat := 32

def reason : Refusal → Event.Kind × String
  | .recordOpen => (.startRecord, "previous record was not ended")
  | .noRecord kind => (kind, "no record is open")
  | .entitiesOpen count => (.endRecord, s!"{count} entities still open")
  | .noEntity => (.endEntity, "no entity is open")
  | .emptyName name => (.literal, s!"empty attribute name '{name}'")
  | .tooDeep v => (.literal, s!"variable '{v}' nests deeper than {maxDepth} levels")
  | .emptyPart part => (.literal, part.message)

def message : Refusal → String
  | .emptyPart part => part.message
  | r => s!"unexpected {r.reason.1.word} event: {r.reason.2}"

end Refusal

/-! ## Outcomes -/

/-- What becomes of an event. -/
structure Outcome (σ : Type u) where
  state : σ
  out : List Event
  refusal : Option Refusal

namespace Outcome

variable {σ : Type u} {α : Type v}

/-- Nothing is handed on. -/
def quiet (s : σ) : Outcome σ := ⟨s, [], none⟩

/-- One event is handed on. -/
def hand (s : σ) (e : Event) : Outcome σ := ⟨s, [e], none⟩

/-- The event is refused. -/
def refuse (s : σ) (r : Refusal) : Outcome σ := ⟨s, [], some r⟩

/-- Go on with a second step, unless the first one has stopped. -/
def andThen (o : Outcome σ) (f : σ → Outcome σ) : Outcome σ :=
  match o.refusal with
  | some _ => o
  | none => ⟨(f o.state).state, o.out ++ (f o.state).out, (f o.state).refusal⟩

/-- Take one step for each item of a list. -/
def each (f : α → σ → Outcome σ) : List α → σ → Outcome σ
  | [], s => quiet s
  | a :: rest, s => (f a s).andThen (each f rest)

theorem each_append (f : α → σ → Outcome σ) (as bs : List α) (s : σ) :
    each f (as ++ bs) s = (each f as s).andThen (each f bs) := by
  induction as generalizing s with
  | nil => simp [each, quiet, andThen]
  | cons a rest ih =>
      simp only [List.cons_append, each]
      unfold andThen
      cases h : (f a s).refusal with
      | some r => simp [h]
      | none =>
          simp only [ih, andThen]
          cases h' : (each f rest (f a s).state).refusal with
          | some r => simp [h']
          | none => simp [List.append_assoc]

end Outcome
end Recast
