import Recast.Graph.Model
import Recast.Graph.Name
import Recast.Stream.Event
import Recast.Text.Parts

/-!
# Encoder — from events to statements

A record becomes the statements about its URI.  An entity becomes a node of its own, which is linked
from the node around it; a literal becomes a statement about the node it stands in.  Dots in the
name of a literal lead through further entities, and these are shared: within a record, the same
names lead to the same node.

* `DataModel` — where records and attributes live;
* `Encoder.step` — an event.

An event that is refused may have left its mark before: what has been added stays.
-/

namespace Recast

/-- Where records and attributes live. -/
structure DataModel where
  id : String
  /-- In front of the ids of records. -/
  recordBase : String
  /-- In front of the names of attributes. -/
  schemaBase : String
  /-- The class of every record. -/
  recordClass : Option String
  deriving DecidableEq, Repr

def DataModel.standard : DataModel :=
  ⟨"default", "http://data.dswarm.org/records/", "http://data.dswarm.org/schema#", none⟩

namespace Encoder

/-- A node that events can be about. -/
structure Scope where
  uri : String
  path : AttributePath
  /-- The names of the entities that lead to the node, joined by slashes. -/
  key : String
  deriving DecidableEq

/-- A record that has not ended. -/
structure Record where
  uri : String
  /-- The open entities, inner ones first. -/
  entities : List Scope
  /-- How many nodes have been made for each key. -/
  counts : List (String × Nat)
  /-- The shared nodes by their keys. -/
  shared : List (String × String)
  deriving DecidableEq

/-- What has been encoded so far. -/
structure State where
  model : Model
  record : Option Record
  /-- The number of records whose URI had been met before. -/
  repeated : Nat
  deriving DecidableEq

def initial : State := ⟨.empty, none, 0⟩

namespace Record

def start (uri : String) : Record := ⟨uri, [], [], []⟩

def current (r : Record) : Scope :=
  r.entities.headD ⟨r.uri, .empty, ""⟩

def makeNode (r : Record) (key : String) : String × Record :=
  let n := (Assoc.get? key r.counts).getD 0 + 1
  (s!"{r.uri}/{key}/{n}", { r with counts := Assoc.put key n r.counts })

end Record

def childKey (parent name : String) : String :=
  if parent = "" then name else parent ++ "/" ++ name

def predicate (d : DataModel) (name : String) : String :=
  Name.mint d.schemaBase name

/-! ## Statements -/

def add (record subject predicate : String) (object : Node) (s : State) : Outcome State :=
  match Statement.make? subject predicate object with
  | .ok t => .quiet { s with model := s.model.addStatement record t }
  | .error part => .refuse s (.emptyPart part)

/-- Say that a node belongs to a class; the first class met becomes that of the records. -/
def addClass (record : String) (node : Scope) (uri : String) (s : State) : Outcome State :=
  (add record node.uri Name.typePredicate (.resource uri) s).andThen fun s =>
    let m := s.model.addPath (node.path.child Name.typePredicate)
    .quiet { s with model := if m.recordClass.isNone then m.setRecordClass uri else m }

/-- Link an entity, which is about to be made, from the node around it. -/
def entityIn (d : DataModel) (parent : Scope) (name uri : String) : Scope :=
  ⟨uri, parent.path.child (predicate d name), childKey parent.key name⟩

/-- Go to the shared entity with a name inside a node; it is made when it is first needed. -/
def share (d : DataModel) (name : String) (x : Scope × State) : Outcome (Scope × State) :=
  let (parent, s) := x
  match s.record with
  | none => .refuse x (.noRecord .literal)
  | some r =>
      let key := childKey parent.key name
      match Assoc.get? key r.shared with
      | some uri => .quiet (entityIn d parent name uri, s)
      | none =>
          -- the node is shared from now on, even if its link is refused
          let (uri, r) := r.makeNode key
          let s := { s with record := some { r with shared := Assoc.put key uri r.shared } }
          let o := add r.uri parent.uri (predicate d name) (.resource uri) s
          ⟨(entityIn d parent name uri, o.state), o.out, o.refusal⟩

def addValue (d : DataModel) (record attribute_ value : String) (x : Scope × State) :
    Outcome (Scope × State) :=
  let p := predicate d attribute_
  let o := (add record x.1.uri p (.literal value) x.2).andThen fun s =>
    .quiet { s with model := s.model.addPath (x.1.path.child p) }
  ⟨(x.1, o.state), o.out, o.refusal⟩

/-! ## Events -/

def startRecord (d : DataModel) (id : String) (s : State) : Outcome State :=
  if s.record.isSome then .refuse s .recordOpen
  else
    let uri := Name.mint d.recordBase id
    let repeated := if (s.model.statementsFor? uri).isSome then s.repeated + 1 else s.repeated
    let s : State := ⟨s.model.addRecord uri, some (.start uri), repeated⟩
    match d.recordClass with
    | some c => addClass uri (Record.start uri).current c s
    | none => .quiet s

/-- A record ends, whether it may or not. -/
def endRecord (s : State) : Outcome State :=
  match s.record with
  | none => .refuse s (.noRecord .endRecord)
  | some r =>
      -- the record is over, also if its end is refused
      let s := { s with record := none }
      if r.entities.isEmpty then .quiet s else .refuse s (.entitiesOpen r.entities.length)

def startEntity (d : DataModel) (name : String) (s : State) : Outcome State :=
  match s.record with
  | none => .refuse s (.noRecord .startEntity)
  | some r =>
      let parent := r.current
      let (uri, r) := r.makeNode (childKey parent.key name)
      let s := { s with
        record := some { r with entities := entityIn d parent name uri :: r.entities } }
      add r.uri parent.uri (predicate d name) (.resource uri) s

def endEntity (s : State) : Outcome State :=
  match s.record with
  | none => .refuse s (.noRecord .endEntity)
  | some r =>
      match r.entities with
      | [] => .refuse s .noEntity
      | _ :: outer => .quiet { s with record := some { r with entities := outer } }

/-- The names that a dotted name consists of; empty ones do not count. -/
def segments (name : String) : List String :=
  (Text.parts '.' name).filter fun n => n ≠ ""

/-- A literal, whose value may be empty and then says nothing. -/
def literal (d : DataModel) (name value : String) (s : State) : Outcome State :=
  match s.record with
  | none => .refuse s (.noRecord .literal)
  | some r =>
      if value = "" then .quiet s
      else if Name.isType name && Name.isAbsolute value then addClass r.uri r.current value s
      else
        -- the dots of an absolute name do not divide it
        let route := if Name.isAbsolute name then [name] else segments name
        match route.getLast? with
        | none => .refuse s (.emptyName name)
        | some attribute_ =>
            let o := (Outcome.each (share d) route.dropLast (r.current, s)).andThen
              (addValue d r.uri attribute_ value)
            ⟨o.state.2, o.out, o.refusal⟩

def step (d : DataModel) (e : Event) (s : State) : Outcome State :=
  match e with
  | .startRecord id => startRecord d id s
  | .endRecord => endRecord s
  | .startEntity name => startEntity d name s
  | .endEntity => endEntity s
  | .literal name value => literal d name value s

def run (d : DataModel) (es : List Event) : Outcome State :=
  Outcome.each (step d) es initial

end Encoder
end Recast
