import Recast.Proofs.Graph.Key
import Recast.Proofs.Graph.Merge
import Recast.Proofs.Stream.Outcome

/-!
# Walk — what each event does to a record

What an event does to the record it stands in is said once for every kind of event, in
`Encoder.Effect`, with the nodes that it makes.  A literal walks from the current node through the
entities in its name: some are shared already and are found, others are made on the way.

* `Encoder.made` — the nodes that events make, in order;
* `Encoder.sharedKeys` — the keys that the names of literals lead through;
* `Encoder.Walk` — a walk through shared entities;
* `Encoder.Effect`, `Encoder.Course` — what an event does, and what events do one after the other.
-/

namespace Recast
namespace Encoder

/-! ## What is in an event -/

/-- The names that the name of a literal consists of; the dots of an absolute name do not divide
it. -/
def route (name : String) : List String :=
  if Name.isAbsolute name then [name] else segments name

/-- The names of the entities that a literal leads through. -/
def through (name value : String) : List String :=
  if value = "" then []
  else if Name.isType name && Name.isAbsolute value then []
  else (route name).dropLast

def entityNames : Event → List String
  | .startEntity name => [name]
  | .literal name value => through name value
  | .startRecord _ | .endRecord | .endEntity => []

def classesAt (d : DataModel) : Event → List String
  | .startRecord _ => d.recordClass.toList
  | .literal name value => if Name.isType name && Name.isAbsolute value then [value] else []
  | .endRecord | .startEntity _ | .endEntity => []

/-! ## Nodes that are made -/

structure Made where
  /-- The node around the entity. -/
  parent : String
  name : String
  key : String
  /-- Whether literals share the node, or it belongs to one entity of the stream. -/
  shared : Bool
  uri : String
  deriving DecidableEq, Repr

/-- A statement links a node from the node around its entity. -/
structure Made.Links (d : DataModel) (x : Made) (st : Statement) : Prop where
  subject : st.subject = x.parent
  predicate : st.predicate = Encoder.predicate d x.name
  object : st.object = .resource x.uri

/-- There is one statement at most by which a node can be linked. -/
theorem Made.Links.unique {d : DataModel} {x : Made} {st st' : Statement} (h : x.Links d st)
    (h' : x.Links d st') : st = st' := by
  have hsubject := h.subject.trans h'.subject.symm
  have hpredicate := h.predicate.trans h'.predicate.symm
  have hobject := h.object.trans h'.object.symm
  cases st
  cases st'
  simp only at hsubject hpredicate hobject
  simp only [hsubject, hpredicate, hobject]

/-- The node that is made for an entity inside another one. -/
def madeIn (r : Record) (parent : Scope) (name : String) (shared : Bool) : Made :=
  ⟨parent.uri, name, childKey parent.key name, shared, (r.makeNode (childKey parent.key name)).1⟩

theorem madeIn_uri (r : Record) (parent : Scope) (name : String) (shared : Bool) :
    (madeIn r parent name shared).uri =
      nodeUri r.uri (childKey parent.key name) (r.count (childKey parent.key name) + 1) := rfl

/-- The node that is made, if any, when a literal leads through an entity. -/
def shareMade (name : String) (x : Scope × State) : List Made :=
  match x.2.record with
  | none => []
  | some r =>
      match Assoc.get? (childKey x.1.key name) r.shared with
      | some _ => []
      | none => [madeIn r x.1 name true]

def stepMade (d : DataModel) (e : Event) (s : State) : List Made :=
  match e, s.record with
  | .startEntity name, some r => [madeIn r r.current name false]
  | .literal name value, some r =>
      Outcome.trace (share d) shareMade (through name value) (r.current, s)
  | _, _ => []

def made (d : DataModel) (es : List Event) (s : State) : List Made :=
  Outcome.trace (step d) (stepMade d) es s

/-- The keys that names lead through, from a key on. -/
def keysFrom (key : String) : List String → List String
  | [] => []
  | name :: rest => childKey key name :: keysFrom (childKey key name) rest

/-- The keys that an event leads through. -/
def stepKeys (e : Event) (s : State) : List String :=
  match e, s.record with
  | .literal name value, some r => keysFrom r.current.key (through name value)
  | _, _ => []

/-- The keys that the names of literals lead through. -/
def sharedKeys (d : DataModel) (es : List Event) (s : State) : List String :=
  Outcome.trace (step d) stepKeys es s

def Record.enter (d : DataModel) (r : Record) (name : String) : Record :=
  let (uri, r') := r.makeNode (childKey r.current.key name)
  { r' with entities := entityIn d r.current name uri :: r.entities }

def Record.share (r : Record) (parent : Scope) (name : String) : Record :=
  let key := childKey parent.key name
  let (uri, r') := r.makeNode key
  { r' with shared := Assoc.put key uri r.shared }

/-! ## What is added -/

section Added

variable {d : DataModel} {r : Record} {s : State}

/-- A statement that has been made has the given parts. -/
theorem make?_eq_ok {subject predicate : String} {object : Node} {st : Statement}
    (h : Statement.make? subject predicate object = .ok st) :
    st.subject = subject ∧ st.predicate = predicate ∧ st.object = object := by
  unfold Statement.make? at h
  split at h
  · cases h
  split at h
  · cases h
  split at h
  · cases h
  · obtain rfl := Except.ok.inj h
    exact ⟨rfl, rfl, rfl⟩

/-- A statement that is accepted has been added to the model, and nothing else has changed. -/
theorem add_ok {record subject predicate : String} {object : Node}
    (h : (add record subject predicate object s).refusal = none) :
    ∃ st : Statement, st.subject = subject ∧ st.predicate = predicate ∧ st.object = object ∧
      (add record subject predicate object s).state =
        { s with model := s.model.addStatement record st } := by
  unfold add at h ⊢
  cases hst : Statement.make? subject predicate object with
  | error part =>
      rw [hst] at h
      cases h
  | ok st =>
      obtain ⟨hsubject, hpredicate, hobject⟩ := make?_eq_ok hst
      exact ⟨st, hsubject, hpredicate, hobject, rfl⟩

/-- A class that is accepted has been stated, its path is in the schema, and it may have become that
of the records. -/
theorem addClass_ok {record c : String} {node : Scope}
    (h : (addClass record node c s).refusal = none) :
    ∃ st : Statement, st.subject = node.uri ∧ st.predicate = Name.typePredicate ∧
      st.object = .resource c ∧
      (addClass record node c s).state = { s with model := ((s.model.addStatement record st).addPath
        (node.path.child Name.typePredicate)).nameClass c } := by
  unfold addClass at h ⊢
  cases hadd : (add record node.uri Name.typePredicate (.resource c) s).refusal with
  | some refusal =>
      rw [Outcome.andThen_of_refusal hadd, hadd] at h
      cases h
  | none =>
      obtain ⟨st, hsubject, hpredicate, hobject, hstate⟩ := add_ok hadd
      rw [Outcome.andThen_of_none hadd, hstate]
      exact ⟨st, hsubject, hpredicate, hobject, rfl⟩

/-- Going to a shared entity finds its node or makes it. -/
theorem share_ok {name : String} {parent : Scope} (hr : s.record = some r)
    (h : (share d name (parent, s)).refusal = none) :
    (∃ uri, Assoc.get? (childKey parent.key name) r.shared = some uri ∧
        (share d name (parent, s)).state = (entityIn d parent name uri, s) ∧
        shareMade name (parent, s) = []) ∨
      Assoc.get? (childKey parent.key name) r.shared = none ∧
        shareMade name (parent, s) = [madeIn r parent name true] ∧
        ∃ st, (madeIn r parent name true).Links d st ∧
          (share d name (parent, s)).state =
            (entityIn d parent name (madeIn r parent name true).uri,
              ⟨s.model.addStatement r.uri st, some (r.share parent name), s.repeated⟩) := by
  unfold share at h ⊢
  unfold shareMade
  simp only [hr] at h ⊢
  -- the node is found under its key, or it is made and linked
  cases hshared : Assoc.get? (childKey parent.key name) r.shared with
  | some uri =>
      simp only [hshared] at h ⊢
      exact .inl ⟨uri, rfl, rfl, trivial⟩
  | none =>
      simp only [hshared] at h ⊢
      obtain ⟨st, hsubject, hpredicate, hobject, hstate⟩ := add_ok h
      refine .inr ⟨trivial, trivial, st, ⟨hsubject, hpredicate, hobject⟩, ?_⟩
      rw [hstate]
      rfl

/-- Adding a value to the node that has been reached. -/
theorem addValue_ok {record attribute_ value : String} {node : Scope}
    (h : (addValue d record attribute_ value (node, s)).refusal = none) :
    ∃ st : Statement, st.subject = node.uri ∧ st.predicate = predicate d attribute_ ∧
      st.object = .literal value ∧
      (addValue d record attribute_ value (node, s)).state = (node, { s with
        model := (s.model.addStatement record st).addPath (node.path.child st.predicate) }) := by
  unfold addValue at h ⊢
  cases hadd : (add record node.uri (predicate d attribute_) (.literal value) s).refusal with
  | some refusal =>
      simp only [Outcome.andThen_of_refusal hadd, hadd] at h
      cases h
  | none =>
      obtain ⟨st, hsubject, hpredicate, hobject, hstate⟩ := add_ok hadd
      refine ⟨st, hsubject, hpredicate, hobject, ?_⟩
      simp only [Outcome.andThen_of_none hadd, hstate, hpredicate]
      rfl

end Added

/-! ## What events do -/

/-- A walk through entities from a node of a record: the nodes that it makes, the record and the model
afterwards, and the node where it ends. -/
inductive Walk (d : DataModel) : Record → Model → Scope → List String →
    List Made → Record → Model → Scope → Prop
  | stay {r : Record} {m : Model} {node : Scope} : Walk d r m node [] [] r m node
  | find {r r' : Record} {m m' : Model} {node last : Scope} {name uri : String}
      {rest : List String} {l : List Made}
      (huri : Assoc.get? (childKey node.key name) r.shared = some uri)
      (onward : Walk d r m (entityIn d node name uri) rest l r' m' last) :
      Walk d r m node (name :: rest) l r' m' last
  | make {r r' : Record} {m m' : Model} {node last : Scope} {name : String} {rest : List String}
      {l : List Made} {st : Statement}
      (hnew : Assoc.get? (childKey node.key name) r.shared = none)
      (link : (madeIn r node name true).Links d st)
      (onward : Walk d (r.share node name) (m.addStatement r.uri st)
        (entityIn d node name (madeIn r node name true).uri) rest l r' m' last) :
      Walk d r m node (name :: rest) (madeIn r node name true :: l) r' m' last

/-- What an event does to a record and a model, with the nodes that it makes. -/
inductive Effect (d : DataModel) : Event → Record → Model → List Made → Record → Model → Prop
  | enter {r : Record} {m : Model} {name : String} {st : Statement}
      (link : (madeIn r r.current name false).Links d st) :
      Effect d (.startEntity name) r m [madeIn r r.current name false] (r.enter d name)
        (m.addStatement r.uri st)
  | leave {r : Record} {m : Model} {inner : Scope} {outer : List Scope}
      (hentities : r.entities = inner :: outer) :
      Effect d .endEntity r m [] { r with entities := outer } m
  | silent {r : Record} {m : Model} {name : String} : Effect d (.literal name "") r m [] r m
  | classify {r : Record} {m : Model} {name c : String} {st : Statement} (hc : c ≠ "")
      (htype : (Name.isType name && Name.isAbsolute c) = true) (hsubject : st.subject = r.current.uri)
      (hpredicate : st.predicate = Name.typePredicate) (hobject : st.object = .resource c) :
      Effect d (.literal name c) r m [] r (((m.addStatement r.uri st).addPath
        (r.current.path.child Name.typePredicate)).nameClass c)
  | value {r r' : Record} {m m' : Model} {name v attribute_ : String} {l : List Made} {last : Scope}
      {st : Statement} (hv : v ≠ "") (htype : (Name.isType name && Name.isAbsolute v) = false)
      (hattribute : (route name).getLast? = some attribute_)
      (walk : Walk d r m r.current (route name).dropLast l r' m' last)
      (hsubject : st.subject = last.uri) (hpredicate : st.predicate = predicate d attribute_)
      (hobject : st.object = .literal v) :
      Effect d (.literal name v) r m l r'
        ((m'.addStatement r.uri st).addPath (last.path.child st.predicate))

/-- What events do to a record one after the other. -/
inductive Course (d : DataModel) : List Event → Record → Model → List Made → Record → Model → Prop
  | stay {r : Record} {m : Model} : Course d [] r m [] r m
  | step {e : Event} {rest : List Event} {r r' r'' : Record} {m m' m'' : Model} {l l' : List Made}
      (first : Effect d e r m l r' m') (onward : Course d rest r' m' l' r'' m'') :
      Course d (e :: rest) r m (l ++ l') r'' m''

section Steps

variable {d : DataModel} {r r' : Record} {m m' : Model} {s : State} {l : List Made}

theorem through_of_value {name v : String} (hv : v ≠ "")
    (htype : (Name.isType name && Name.isAbsolute v) = false) :
    through name v = (route name).dropLast := by
  rw [through, if_neg hv, if_neg (by simp [htype])]

theorem Walk.uri {node last : Scope} {names : List String}
    (h : Walk d r m node names l r' m' last) : r'.uri = r.uri := by
  induction h with
  | stay => rfl
  | find _ _ ih => exact ih
  | make _ _ _ ih => exact ih

/-- A walk leaves the same entities open. -/
theorem Walk.entities {node last : Scope} {names : List String}
    (h : Walk d r m node names l r' m' last) : r'.entities = r.entities := by
  induction h with
  | stay => rfl
  | find _ _ ih => exact ih
  | make _ _ _ ih => exact ih

theorem Effect.uri {e : Event} (h : Effect d e r m l r' m') : r'.uri = r.uri := by
  cases h with
  | value _ _ _ walk => exact walk.uri
  | _ => rfl

/-- Going to shared entities one after the other without a refusal is a walk. -/
theorem each_walk {names : List String} {node : Scope} (hr : s.record = some r)
    (h : (Outcome.each (share d) names (node, s)).refusal = none) :
    ∃ r' last s', (Outcome.each (share d) names (node, s)).state = (last, s') ∧
      s'.record = some r' ∧
      Walk d r s.model node names (Outcome.trace (share d) shareMade names (node, s)) r' s'.model
        last := by
  induction names generalizing node s r with
  | nil => exact ⟨r, node, s, rfl, hr, .stay⟩
  | cons name rest ih =>
      obtain ⟨hfirst, hrest⟩ := Outcome.refusal_each_cons.1 h
      rw [Outcome.state_each_cons hfirst, Outcome.trace_cons hfirst]
      -- the first name leads to a node that is there or to a new one
      rcases share_ok hr hfirst with ⟨uri, huri, hstate, hmade⟩ | ⟨hnew, hmade, st, link, hstate⟩
      · rw [hstate] at hrest
        rw [hstate, hmade]
        obtain ⟨r', last, s', hall, hr', hwalk⟩ := ih hr hrest
        exact ⟨r', last, s', hall, hr', .find huri hwalk⟩
      · rw [hstate] at hrest
        rw [hstate, hmade]
        obtain ⟨r', last, s', hall, hr', hwalk⟩ := ih rfl hrest
        exact ⟨r', last, s', hall, hr', .make hnew link hwalk⟩

/-- A literal that is accepted has the effect of a literal. -/
theorem literal_effect {name v : String} (hr : s.record = some r)
    (h : (literal d name v s).refusal = none) :
    ∃ r', (literal d name v s).state.record = some r' ∧
      Effect d (.literal name v) r s.model (stepMade d (.literal name v) s) r'
        (literal d name v s).state.model := by
  have hmade : stepMade d (.literal name v) s =
      Outcome.trace (share d) shareMade (through name v) (r.current, s) := by
    simp only [stepMade, hr]
  rw [hmade]
  unfold literal at h ⊢
  simp only [hr] at h ⊢
  -- a value that is empty changes nothing
  by_cases hv : v = ""
  · subst hv
    exact ⟨r, hr, .silent⟩
  rw [if_neg hv] at h ⊢
  -- a class is stated of the current node
  by_cases htype : (Name.isType name && Name.isAbsolute v) = true
  · rw [if_pos htype] at h ⊢
    rw [through, if_neg hv, if_pos htype]
    obtain ⟨st, hsubject, hpredicate, hobject, hstate⟩ := addClass_ok h
    rw [hstate]
    exact ⟨r, hr, .classify hv htype hsubject hpredicate hobject⟩
  rw [if_neg htype] at h ⊢
  have htype := Bool.eq_false_iff.2 htype
  rw [through_of_value hv htype]
  have hroute : (if Name.isAbsolute name then [name] else segments name) = route name := rfl
  rw [hroute] at h ⊢
  -- the last part of the name is the attribute, the others lead to the node
  cases hlast : (route name).getLast? with
  | none =>
      simp only [hlast] at h
      cases h
  | some attribute_ =>
      simp only [hlast] at h ⊢
      cases hshare : (Outcome.each (share d) (route name).dropLast (r.current, s)).refusal with
      | some refusal =>
          rw [Outcome.andThen_of_refusal hshare, hshare] at h
          cases h
      | none =>
          obtain ⟨r', last, s', hstate, hr', hwalk⟩ := each_walk hr hshare
          rw [Outcome.andThen_of_none hshare, hstate] at h ⊢
          obtain ⟨st, hsubject, hpredicate, hobject, hadded⟩ := addValue_ok h
          rw [hadded]
          exact ⟨r', hr', .value hv htype hlast hwalk hsubject hpredicate hobject⟩

/-- A record that starts has nothing in it but a class, if it has one. -/
theorem startRecord_ok {id : String} (h : (startRecord d id s).refusal = none) :
    s.record = none ∧
      (startRecord d id s).state.record = some (.start (Name.mint d.recordBase id)) ∧
      (d.recordClass = none ∧
          (startRecord d id s).state.model = s.model.addRecord (Name.mint d.recordBase id) ∨
        ∃ (c : String) (st : Statement), d.recordClass = some c ∧
          st.subject = Name.mint d.recordBase id ∧ st.predicate = Name.typePredicate ∧
          st.object = .resource c ∧
          (startRecord d id s).state.model = (((s.model.addRecord (Name.mint d.recordBase
            id)).addStatement (Name.mint d.recordBase id) st).addPath
              (AttributePath.empty.child Name.typePredicate)).nameClass c) := by
  unfold startRecord at h ⊢
  cases hr : s.record with
  | some r => simp [hr, Outcome.refuse] at h
  | none =>
      simp only [hr, Option.isSome_none, Bool.false_eq_true, if_false] at h ⊢
      cases hclass : d.recordClass with
      | none => exact ⟨trivial, rfl, .inl ⟨rfl, rfl⟩⟩
      | some c =>
          simp only [hclass] at h ⊢
          obtain ⟨st, hsubject, hpredicate, hobject, hstate⟩ := addClass_ok h
          rw [hstate]
          exact ⟨trivial, rfl, .inr ⟨c, st, rfl, hsubject, hpredicate, hobject, rfl⟩⟩

/-- An event that is accepted in a record, and does not end it, has its effect on the record. -/
theorem step_effect {e : Event} (hr : s.record = some r) (hopen : e ≠ .endRecord)
    (h : (step d e s).refusal = none) :
    ∃ r', (step d e s).state.record = some r' ∧
      Effect d e r s.model (stepMade d e s) r' (step d e s).state.model := by
  cases e with
  | startRecord id =>
      -- a record is open already
      simp [step, startRecord, hr, Outcome.refuse] at h
  | endRecord => exact absurd rfl hopen
  | literal name v => exact literal_effect hr h
  | startEntity name =>
      simp only [step, startEntity, hr] at h ⊢
      obtain ⟨st, hsubject, hpredicate, hobject, hstate⟩ := add_ok h
      have link : (madeIn r r.current name false).Links d st := ⟨hsubject, hpredicate, hobject⟩
      rw [hstate]
      simp only [stepMade, hr]
      exact ⟨r.enter d name, rfl, .enter link⟩
  | endEntity =>
      simp only [step, endEntity, hr] at h ⊢
      simp only [stepMade]
      cases hentities : r.entities with
      | nil =>
          simp only [hentities] at h
          cases h
      | cons inner outer => exact ⟨_, rfl, .leave hentities⟩

/-- An event that is accepted starts a record, ends one or has an effect on it. -/
theorem step_cases {e : Event} (h : (step d e s).refusal = none) :
    (∃ id, e = .startRecord id ∧ s.record = none) ∨
      (∃ r, s.record = some r ∧ e = .endRecord ∧ r.entities = [] ∧
        (step d e s).state.record = none ∧ (step d e s).state.model = s.model) ∨
      ∃ r r', s.record = some r ∧ (step d e s).state.record = some r' ∧
        Effect d e r s.model (stepMade d e s) r' (step d e s).state.model := by
  cases hr : s.record with
  | none =>
      -- nothing but the start of a record is accepted outside
      cases e with
      | startRecord id => exact .inl ⟨id, rfl, rfl⟩
      | endRecord => simp [step, endRecord, hr, Outcome.refuse] at h
      | startEntity name => simp [step, startEntity, hr, Outcome.refuse] at h
      | endEntity => simp [step, endEntity, hr, Outcome.refuse] at h
      | literal name value => simp [step, literal, hr, Outcome.refuse] at h
  | some r =>
      by_cases hend : e = .endRecord
      · subst hend
        simp only [step, endRecord, hr] at h ⊢
        split at h
        · rename_i hempty
          rw [if_pos hempty]
          exact .inr (.inl ⟨r, rfl, trivial, List.isEmpty_iff.1 hempty, rfl, rfl⟩)
        · cases h
      · obtain ⟨r', hr', heffect⟩ := step_effect hr hend h
        exact .inr (.inr ⟨r, r', rfl, hr', heffect⟩)

/-- Events inside a record that are accepted make a course. -/
theorem each_course {es : List Event} (hr : s.record = some r) (hopen : .endRecord ∉ es)
    (h : (Outcome.each (step d) es s).refusal = none) :
    ∃ r', (Outcome.each (step d) es s).state.record = some r' ∧
      Course d es r s.model (made d es s) r' (Outcome.each (step d) es s).state.model := by
  induction es generalizing s r with
  | nil => exact ⟨r, hr, .stay⟩
  | cons e rest ih =>
      obtain ⟨hfirst, hrest⟩ := Outcome.refusal_each_cons.1 h
      obtain ⟨he, hmore⟩ : .endRecord ≠ e ∧ .endRecord ∉ rest := by simpa using hopen
      obtain ⟨r', hr', heffect⟩ := step_effect hr (Ne.symm he) hfirst
      obtain ⟨r'', hr'', hcourse⟩ := ih hr' hmore hrest
      rw [Outcome.state_each_cons hfirst, made, Outcome.trace_cons hfirst]
      exact ⟨r'', hr'', .step heffect hcourse⟩

/-! ## Statements stay -/

theorem Walk.mono {node last : Scope} {names : List String}
    (h : Walk d r m node names l r' m' last) (k : String) :
    (m.statementsOf k).toList ⊆ (m'.statementsOf k).toList := by
  induction h with
  | stay => exact List.Subset.refl _
  | find _ _ ih => exact ih
  | @make r _ m _ _ _ _ _ _ st _ _ _ ih =>
      exact List.Subset.trans (Model.subset_addStatement m r.uri st k) ih

theorem Effect.mono {e : Event} (h : Effect d e r m l r' m') (k : String) :
    (m.statementsOf k).toList ⊆ (m'.statementsOf k).toList := by
  cases h with
  | enter _ => exact Model.subset_addStatement _ _ _ k
  | leave _ | silent => exact List.Subset.refl _
  | classify _ _ _ _ _ =>
      rw [Model.statementsOf_nameClass, Model.statementsOf_addPath]
      exact Model.subset_addStatement _ _ _ k
  | value _ _ _ walk _ _ _ =>
      rw [Model.statementsOf_addPath]
      exact List.Subset.trans (walk.mono k) (Model.subset_addStatement _ _ _ k)

theorem startRecord_mono {id : String} (h : (startRecord d id s).refusal = none) (k : String) :
    (s.model.statementsOf k).toList ⊆ ((startRecord d id s).state.model.statementsOf k).toList := by
  obtain ⟨-, -, ⟨-, hmodel⟩ | ⟨c, st, -, -, -, -, hmodel⟩⟩ := startRecord_ok h
  · rw [hmodel, Model.statementsOf_addRecord]
    exact List.Subset.refl _
  · rw [hmodel, Model.statementsOf_nameClass, Model.statementsOf_addPath]
    refine List.Subset.trans ?_ (Model.subset_addStatement _ _ _ k)
    rw [Model.statementsOf_addRecord]
    exact List.Subset.refl _

/-- No event that is accepted takes a statement away. -/
theorem step_mono {e : Event} (h : (step d e s).refusal = none) (k : String) :
    (s.model.statementsOf k).toList ⊆ ((step d e s).state.model.statementsOf k).toList := by
  rcases step_cases h with ⟨id, rfl, -⟩ | ⟨r, -, -, -, -, hmodel⟩ | ⟨r, r', -, -, heffect⟩
  · exact startRecord_mono h k
  · rw [hmodel]
    exact List.Subset.refl _
  · exact heffect.mono k

/-- What has been stated stays. -/
theorem each_mono {es : List Event} (h : (Outcome.each (step d) es s).refusal = none) (k : String) :
    (s.model.statementsOf k).toList ⊆
      ((Outcome.each (step d) es s).state.model.statementsOf k).toList := by
  induction es generalizing s with
  | nil => exact List.Subset.refl _
  | cons e rest ih =>
      obtain ⟨hfirst, hrest⟩ := Outcome.refusal_each_cons.1 h
      rw [Outcome.state_each_cons hfirst]
      exact List.Subset.trans (step_mono hfirst k) (ih hrest)

/-! ## Other records -/

/-- A walk leaves the schema as it is. -/
theorem Walk.schema {node last : Scope} {names : List String}
    (h : Walk d r m node names l r' m' last) : m'.schema = m.schema := by
  induction h with
  | stay => rfl
  | find _ _ ih => exact ih
  | make _ _ _ ih => exact ih

theorem Effect.schema_mono {e : Event} (h : Effect d e r m l r' m') :
    m.schema.toList ⊆ m'.schema.toList := by
  cases h with
  | enter _ | leave _ | silent => exact List.Subset.refl _
  | classify _ _ _ _ _ =>
      rw [Model.schema_nameClass]
      exact OrderedSet.subset_insert _ _
  | value _ _ _ walk _ _ _ =>
      rw [← walk.schema]
      exact OrderedSet.subset_insert _ _

theorem startRecord_schema_mono {id : String} (h : (startRecord d id s).refusal = none) :
    s.model.schema.toList ⊆ (startRecord d id s).state.model.schema.toList := by
  obtain ⟨-, -, ⟨-, hmodel⟩ | ⟨c, st, -, -, -, -, hmodel⟩⟩ := startRecord_ok h
  · rw [hmodel]
    exact List.Subset.refl _
  · rw [hmodel, Model.schema_nameClass]
    exact OrderedSet.subset_insert _ _

/-- A walk says nothing in other records. -/
theorem Walk.statementsOf_of_ne {node last : Scope} {names : List String} {k : String}
    (h : Walk d r m node names l r' m' last) (hk : r.uri ≠ k) :
    m'.statementsOf k = m.statementsOf k := by
  induction h with
  | stay => rfl
  | find _ _ ih => exact ih hk
  | @make r _ m _ _ _ _ _ _ st _ _ _ ih =>
      exact (ih hk).trans (Model.statementsOf_addStatement_of_ne m r.uri st hk)

/-- What an event does to a record leaves the others as they are. -/
theorem Effect.statementsOf_of_ne {e : Event} {k : String} (h : Effect d e r m l r' m')
    (hk : r.uri ≠ k) : m'.statementsOf k = m.statementsOf k := by
  cases h with
  | enter _ => exact Model.statementsOf_addStatement_of_ne m r.uri _ hk
  | leave _ | silent => rfl
  | classify _ _ _ _ _ =>
      rw [Model.statementsOf_nameClass, Model.statementsOf_addPath]
      exact Model.statementsOf_addStatement_of_ne m r.uri _ hk
  | @value _ _ _ m' _ _ _ _ _ _ _ _ _ walk _ _ _ =>
      rw [Model.statementsOf_addPath, Model.statementsOf_addStatement_of_ne m' r.uri _ hk]
      exact walk.statementsOf_of_ne hk

end Steps

end Encoder
end Recast
