import Recast.Proofs.Graph.EntityTree
import Recast.Proofs.Graph.SchemaWalk

/-!
# Rederived — the schema of a run and what its statements tell of it

A run collects the paths of its values and classes.  Derived from the statements again, the schema
has these paths and those of the entities that nothing is stated about:
`Encoder.Surveyed.mem_derivedSchema`.  For the links of a record form a forest, and the walk along
them misses no path; but no class may be taken for a link, and no shared entity be found by another
path than that on which it has been made.

* `Encoder.classings`, `Encoder.ways` — the classes that are stated, and the ways of literals;
* `Encoder.Drawn`, `Encoder.Settled` — the statements of a record fit a schema;
* `Encoder.Surveyed`, `Encoder.Ongoing` — those of all records do, at the end and on the way.
-/

namespace Recast
namespace Encoder

open Schema (Reaches)

/-! ## What a run notes -/

def recordUri? (d : DataModel) : Event → Option String
  | .startRecord id => some (Name.mint d.recordBase id)
  | .endRecord | .startEntity _ | .endEntity | .literal _ _ => none

def recordUris (d : DataModel) (es : List Event) : List String :=
  es.filterMap (recordUri? d)

def recordAt? (d : DataModel) (e : Event) (s : State) : Option String :=
  (recordUri? d e).or (s.record.map Record.uri)

/-- A class that is stated in a record. -/
structure Classing where
  record : String
  uri : String
  deriving DecidableEq, Repr

/-- The classes that are stated at an event, in their record. -/
def stepClassings (d : DataModel) (e : Event) (s : State) : List Classing :=
  (recordAt? d e s).toList.flatMap fun record => (classesAt d e).map (⟨record, ·⟩)

def classings (d : DataModel) (es : List Event) (s : State) : List Classing :=
  Outcome.trace (step d) (stepClassings d) es s

/-- A way that leads to a shared entity of a record: the key of the entity and the path to it. -/
structure Way where
  record : String
  key : String
  path : AttributePath
  deriving DecidableEq, Repr

/-- The ways along names from a node on. -/
def waysFrom (d : DataModel) (record key : String) (path : AttributePath) : List String → List Way
  | [] => []
  | name :: rest => ⟨record, childKey key name, path.child (predicate d name)⟩ ::
      waysFrom d record (childKey key name) (path.child (predicate d name)) rest

/-- The ways that an event goes. -/
def stepWays (d : DataModel) (e : Event) (s : State) : List Way :=
  match e, s.record with
  | .literal name value, some r =>
      waysFrom d r.uri r.current.key r.current.path (through name value)
  | _, _ => []

def ways (d : DataModel) (es : List Event) (s : State) : List Way :=
  Outcome.trace (step d) (stepWays d) es s

/-- Ways to one key in a record have one path. -/
def Consistent (ws : List Way) : Prop :=
  ∀ w ∈ ws, ∀ w' ∈ ws, w.record = w'.record → w.key = w'.key → w.path = w'.path

instance (ws : List Way) : Decidable (Consistent ws) :=
  inferInstanceAs (Decidable (∀ w ∈ ws, ∀ w' ∈ ws, _ → _ → _))

/-! ## Statements at their places -/

/-- A statement of a value, or of a class of the record. -/
def Closes (cs : List Classing) (record : String) (st : Statement) : Prop :=
  (∃ v, st.object = .literal v) ∨ ∃ c, ⟨record, c⟩ ∈ cs ∧ st.object = .resource c

/-- A path leads to a statement of a value or a class. -/
def Shows (cs : List Classing) (record : String) (ss : OrderedSet Statement) (p : AttributePath) :
    Prop :=
  ∃ path, ∃ st ∈ ss.toList, Closes cs record st ∧ Reaches ss.toList record path st.subject ∧
    p = path.child st.predicate

/-- The statements of a record fit a schema: nodes that events can be about are reached by their
paths, and every statement either links a node or is at the end of a path of the schema. -/
structure Drawn (d : DataModel) (ws : List Way) (cs : List Classing) (made : List Made) (r : Record)
    (ss : OrderedSet Statement) (schema : OrderedSet AttributePath) : Prop where
  entities : ∀ node ∈ r.entities, Reaches ss.toList r.uri node.path node.uri
  shared : ∀ key uri, Assoc.get? key r.shared = some uri →
    ∃ path, ⟨r.uri, key, path⟩ ∈ ws ∧ Reaches ss.toList r.uri path uri
  statements : ∀ st ∈ ss.toList, (∃ x ∈ made, x.Links d st) ∨
    Closes cs r.uri st ∧ ∃ path, Reaches ss.toList r.uri path st.subject ∧
      path.child st.predicate ∈ schema.toList

section Drawn

variable {d : DataModel} {ws : List Way} {cs : List Classing} {made made' l : List Made}
  {r r' : Record} {m m' : Model} {s : State} {ss : OrderedSet Statement}
  {schema schema' : OrderedSet AttributePath} {node last : Scope} {name : String} {st : Statement}

/-- The node of an entity is reached when it is linked from a node that is. -/
theorem reaches_made {shared : Bool} (hnode : Reaches ss.toList r.uri node.path node.uri)
    (link : (madeIn r node name shared).Links d st) :
    Reaches (ss.insert st).toList r.uri (node.path.child (predicate d name))
      (madeIn r node name shared).uri := by
  have hsubject : Reaches (ss.insert st).toList r.uri node.path st.subject := by
    rw [link.subject]
    exact hnode.mono (ss.subset_insert st)
  have hlinked := Reaches.link hsubject (OrderedSet.mem_insert.2 (.inr rfl)) link.object
  rwa [link.predicate] at hlinked

theorem drawn_start (uri : String) (schema : OrderedSet AttributePath) :
    Drawn d ws cs [] (.start uri) .empty schema where
  entities := by simp [Record.start]
  shared := by simp [Record.start, Assoc.get?]
  statements := by simp [OrderedSet.empty]

/-- The node that events are about is reached by its path. -/
theorem Drawn.current (h : Drawn d ws cs made r ss schema) :
    Reaches ss.toList r.uri r.current.path r.current.uri := by
  unfold Record.current
  cases hentities : r.entities with
  | nil => exact .here
  | cons inner outer => exact h.entities inner (hentities ▸ List.mem_cons_self)

/-- One more statement that has its place. -/
theorem Drawn.insert (h : Drawn d ws cs made r ss schema) (hmade : made ⊆ made')
    (hschema : schema.toList ⊆ schema'.toList)
    (hst : (∃ x ∈ made', x.Links d st) ∨ Closes cs r.uri st ∧ ∃ path,
      Reaches (ss.insert st).toList r.uri path st.subject ∧
        path.child st.predicate ∈ schema'.toList) :
    Drawn d ws cs made' r (ss.insert st) schema' where
  entities := fun node hnode => (h.entities node hnode).mono (ss.subset_insert st)
  shared := by
    intro key uri huri
    obtain ⟨path, hway, hpath⟩ := h.shared key uri huri
    exact ⟨path, hway, hpath.mono (ss.subset_insert st)⟩
  statements := by
    intro st' hst'
    rcases OrderedSet.mem_insert.1 hst' with hold | rfl
    · rcases h.statements st' hold with ⟨x, hx, hlinks⟩ | ⟨hcloses, path, hpath, hschema'⟩
      · exact .inl ⟨x, hmade hx, hlinks⟩
      · exact .inr ⟨hcloses, path, hpath.mono (ss.subset_insert st), hschema hschema'⟩
    · exact hst

/-- One more node that is linked. -/
theorem Drawn.link {shared : Bool} (h : Drawn d ws cs made r ss schema)
    (link : (madeIn r node name shared).Links d st) :
    Drawn d ws cs (made ++ [madeIn r node name shared]) r (ss.insert st) schema := by
  have hmade : made ⊆ made ++ [madeIn r node name shared] := List.subset_append_left _ _
  have hmem : madeIn r node name shared ∈ made ++ [madeIn r node name shared] :=
    List.mem_append_right _ (List.mem_singleton_self _)
  exact h.insert hmade (List.Subset.refl _) (.inl ⟨_, hmem, link⟩)

/-- One more value or class at the end of a path. -/
theorem Drawn.close {path : AttributePath} (h : Drawn d ws cs made r ss schema)
    (hpath : Reaches ss.toList r.uri path st.subject) (hcloses : Closes cs r.uri st) :
    Drawn d ws cs made r (ss.insert st) (schema.insert (path.child st.predicate)) ∧
      ∀ p ∈ (schema.insert (path.child st.predicate)).toList,
        p ∈ schema.toList ∨ Shows cs r.uri (ss.insert st) p := by
  have hreaches : Reaches (ss.insert st).toList r.uri path st.subject := hpath.mono (ss.subset_insert st)
  refine ⟨h.insert (List.Subset.refl _) (schema.subset_insert _) ?_, ?_⟩
  · exact .inr ⟨hcloses, path, hreaches, OrderedSet.mem_insert.2 (.inr rfl)⟩
  · intro p hp
    rcases OrderedSet.mem_insert.1 hp with hold | rfl
    · exact .inl hold
    · exact .inr ⟨path, st, OrderedSet.mem_insert.2 (.inr rfl), hcloses, hreaches, rfl⟩

/-- A walk on consistent ways ends at the node that its path leads to. -/
theorem Drawn.walk {names : List String} (hconsistent : Consistent ws)
    (walk : Walk d r m node names l r' m' last)
    (hways : waysFrom d r.uri node.key node.path names ⊆ ws)
    (hnode : Reaches (m.statementsOf r.uri).toList r.uri node.path node.uri)
    (h : Drawn d ws cs made r (m.statementsOf r.uri) schema) :
    Drawn d ws cs (made ++ l) r' (m'.statementsOf r.uri) schema ∧
      Reaches (m'.statementsOf r.uri).toList r.uri last.path last.uri := by
  induction walk generalizing made with
  | stay => exact ⟨by rwa [List.append_nil], hnode⟩
  | @find r r' m m' node last name uri rest l huri _ ih =>
      obtain ⟨hway, hmore⟩ := List.cons_subset.1 hways
      -- the entity has been made on a way with the same path
      obtain ⟨path, hway', hpath⟩ := h.shared _ _ huri
      obtain rfl : path = node.path.child (predicate d name) :=
        hconsistent _ hway' _ hway rfl rfl
      exact ih hmore hpath h
  | @make r r' m m' node last name rest l st hnew link _ ih =>
      obtain ⟨hway, hmore⟩ := List.cons_subset.1 hways
      have hmade := reaches_made hnode link
      have hlinked := h.link link
      rw [← Model.statementsOf_addStatement_self] at hmade hlinked
      rw [List.append_cons]
      refine ih hmore hmade ⟨hlinked.entities, fun key uri huri => ?_, hlinked.statements⟩
      rw [Record.share, Assoc.get?_put] at huri
      split at huri
      · rename_i hkey
        obtain rfl := Option.some.inj huri
        exact ⟨_, hkey ▸ hway, hmade⟩
      · exact hlinked.shared key uri huri

theorem mem_stepClassings {e : Event} {c : String} (hr : s.record = some r)
    (hrecord : recordUri? d e = none) (hc : c ∈ classesAt d e) :
    ⟨r.uri, c⟩ ∈ stepClassings d e s := by
  simp [stepClassings, recordAt?, hrecord, hr, hc]

/-- An event keeps the statements of its record drawn, and the paths that it adds are shown there. -/
theorem Drawn.effect {e : Event} (hr : s.record = some r) (hconsistent : Consistent ws)
    (hways : stepWays d e s ⊆ ws) (hclassings : stepClassings d e s ⊆ cs)
    (heffect : Effect d e r m l r' m') (h : Drawn d ws cs made r (m.statementsOf r.uri) m.schema) :
    Drawn d ws cs (made ++ l) r' (m'.statementsOf r.uri) m'.schema ∧
      ∀ p ∈ m'.schema.toList, p ∈ m.schema.toList ∨ Shows cs r.uri (m'.statementsOf r.uri) p := by
  cases heffect with
  | @enter _ _ name st link =>
      -- the node is reached from the one that was current, and is the inmost one now
      have hmade := reaches_made h.current link
      have hlinked := h.link link
      rw [Model.statementsOf_addStatement_self]
      refine ⟨⟨fun node hnode => ?_, hlinked.shared, hlinked.statements⟩, fun p hp => .inl hp⟩
      rcases List.mem_cons.1 hnode with rfl | hnode
      · exact hmade
      · exact hlinked.entities node hnode
  | @leave _ _ inner outer hentities =>
      rw [List.append_nil]
      refine ⟨⟨fun node hnode => ?_, h.shared, h.statements⟩, fun p hp => .inl hp⟩
      exact h.entities node (hentities ▸ List.mem_cons_of_mem _ hnode)
  | silent => exact ⟨by rwa [List.append_nil], fun p hp => .inl hp⟩
  | @classify _ _ name c st hc htype hsubject hpredicate hobject =>
      have hclass : c ∈ classesAt d (.literal name c) := by simp [classesAt, htype]
      have hcloses : Closes cs r.uri st :=
        .inr ⟨c, hclassings (mem_stepClassings hr rfl hclass), hobject⟩
      obtain ⟨hdrawn, hshows⟩ := h.close (hsubject ▸ h.current) hcloses
      rw [hpredicate] at hdrawn hshows
      rw [List.append_nil, Model.statementsOf_nameClass, Model.statementsOf_addPath,
        Model.statementsOf_addStatement_self, Model.schema_nameClass]
      exact ⟨hdrawn, hshows⟩
  | @value _ _ _ m' name v attribute_ _ last st hv htype _ walk hsubject hpredicate hobject =>
      -- the ways of the walk are among those that are noted
      have hwalked : waysFrom d r.uri r.current.key r.current.path (route name).dropLast ⊆ ws := by
        have hstep : stepWays d (.literal name v) s =
            waysFrom d r.uri r.current.key r.current.path (route name).dropLast := by
          simp only [stepWays, hr, through_of_value hv htype]
        exact hstep ▸ hways
      obtain ⟨hmade, hlast⟩ := h.walk hconsistent walk hwalked h.current
      rw [← walk.uri] at hmade hlast ⊢
      rw [← walk.schema] at hmade ⊢
      obtain ⟨hdrawn, hshows⟩ := hmade.close (hsubject ▸ hlast) (.inl ⟨v, hobject⟩)
      rw [Model.statementsOf_addPath, Model.statementsOf_addStatement_self]
      exact ⟨hdrawn, hshows⟩

/-- A larger schema does no harm. -/
theorem Drawn.mono (h : Drawn d ws cs made r ss schema) (hschema : schema.toList ⊆ schema'.toList) :
    Drawn d ws cs made r ss schema' where
  entities := h.entities
  shared := h.shared
  statements := by
    intro st hst
    rcases h.statements st hst with hlink | ⟨hcloses, path, hpath, hmem⟩
    · exact .inl hlink
    · exact .inr ⟨hcloses, path, hpath, hschema hmem⟩

end Drawn

/-! ## Records at the end of a run -/

def classesOf (cs : List Classing) (record : String) : List String :=
  (cs.filter fun c => c.record = record).map Classing.uri

/-- The nodes of a record are among some others, and its statements fit a schema. -/
def Settled (d : DataModel) (ws : List Way) (cs : List Classing) (nodes : List Made) (r : Record)
    (m : Model) (schema : OrderedSet AttributePath) : Prop :=
  ∃ made ⊆ nodes, Grown d (classesOf cs r.uri) made r (m.statementsOf r.uri) ∧
    Drawn d ws cs made r (m.statementsOf r.uri) schema

/-- All records of a model fit a schema, and the paths of the model are shown in them. -/
structure Surveyed (d : DataModel) (ws : List Way) (cs : List Classing) (nodes : List Made)
    (m : Model) (schema : OrderedSet AttributePath) : Prop where
  records : ∀ record, ∃ r : Record, r.uri = record ∧ Settled d ws cs nodes r m schema
  covered : ∀ p ∈ m.schema.toList, ∃ record, Shows cs record (m.statementsOf record) p

/-- All records fit the schema, also the one that is open. -/
structure Ongoing (d : DataModel) (ws : List Way) (cs : List Classing) (nodes : List Made)
    (s : State) : Prop where
  surveyed : Surveyed d ws cs nodes s.model s.model.schema
  opened : ∀ r, s.record = some r → Settled d ws cs nodes r s.model s.model.schema

section Surveyed

variable {d : DataModel} {ws : List Way} {cs : List Classing} {nodes l : List Made}
  {r r' : Record} {m m' : Model} {s s' : State} {ss ss' : OrderedSet Statement}
  {schema schema' : OrderedSet AttributePath} {record k id : String} {p : AttributePath}
  {e : Event}

/-- The classes of a record are those stated in it. -/
theorem mem_classesOf {c : String} : c ∈ classesOf cs record ↔ ⟨record, c⟩ ∈ cs := by
  constructor
  · intro hc
    obtain ⟨x, hx, rfl⟩ := List.mem_map.1 hc
    obtain ⟨hmem, hrecord⟩ := List.mem_filter.1 hx
    rwa [← of_decide_eq_true hrecord]
  · intro hc
    exact List.mem_map.2 ⟨_, List.mem_filter.2 ⟨hc, decide_eq_true rfl⟩, rfl⟩

theorem Shows.mono (hss : ss.toList ⊆ ss'.toList) (h : Shows cs record ss p) :
    Shows cs record ss' p := by
  obtain ⟨path, st, hst, hcloses, hpath, hp⟩ := h
  exact ⟨path, st, hss hst, hcloses, hpath.mono hss, hp⟩

/-- A record does not mind what is said in other records. -/
theorem Settled.other (h : Settled d ws cs nodes r m schema)
    (hss : m'.statementsOf r.uri = m.statementsOf r.uri)
    (hschema : schema.toList ⊆ schema'.toList) : Settled d ws cs nodes r m' schema' := by
  obtain ⟨made, hmade, hgrown, hdrawn⟩ := h
  rw [← hss] at hgrown hdrawn
  exact ⟨made, hmade, hgrown, hdrawn.mono hschema⟩

theorem settled_start (record : String) (hss : m.statementsOf record = .empty) :
    Settled d ws cs nodes (.start record) m schema := by
  have hstart : m.statementsOf (Record.start record).uri = .empty := hss
  rw [Settled, hstart]
  exact ⟨[], List.nil_subset _, grown_start record, drawn_start record _⟩

theorem ongoing_initial : Ongoing d ws cs nodes initial where
  surveyed := by
    refine ⟨fun record => ⟨.start record, rfl, settled_start record rfl⟩, fun p hp => ?_⟩
    cases hp
  opened := by
    intro r hr
    cases hr

/-- What happens to one record leaves the others as they are. -/
theorem Surveyed.grow (h : Surveyed d ws cs nodes m schema)
    (hsettled : Settled d ws cs nodes r m' schema')
    (hothers : ∀ k, r.uri ≠ k → m'.statementsOf k = m.statementsOf k)
    (hmore : ∀ k, (m.statementsOf k).toList ⊆ (m'.statementsOf k).toList)
    (hschema : schema.toList ⊆ schema'.toList)
    (hpaths : ∀ p ∈ m'.schema.toList,
      p ∈ m.schema.toList ∨ Shows cs r.uri (m'.statementsOf r.uri) p) :
    Surveyed d ws cs nodes m' schema' := by
  constructor
  · -- the record that has grown is settled, the others are as they were
    intro record
    by_cases hrecord : r.uri = record
    · exact ⟨r, hrecord, hsettled⟩
    · obtain ⟨r', rfl, hother⟩ := h.records record
      exact ⟨r', rfl, hother.other (hothers _ hrecord) hschema⟩
  · intro p hp
    rcases hpaths p hp with hold | hnew
    · obtain ⟨record, hshows⟩ := h.covered p hold
      exact ⟨record, hshows.mono (hmore record)⟩
    · exact ⟨r.uri, hnew⟩

theorem Surveyed.mono (h : Surveyed d ws cs nodes m schema) (hschema : schema.toList ⊆ schema'.toList) :
    Surveyed d ws cs nodes m schema' := by
  refine ⟨fun record => ?_, h.covered⟩
  obtain ⟨r, hr, hsettled⟩ := h.records record
  exact ⟨r, hr, hsettled.other rfl hschema⟩

/-- Stating the class of a record keeps all records as they should be. -/
theorem Surveyed.classify {c : String} {st : Statement} (h : Surveyed d ws cs nodes m schema)
    (hsubject : st.subject = record) (hobject : st.object = .resource c) (hc : ⟨record, c⟩ ∈ cs)
    (hpath : AttributePath.empty.child st.predicate ∈ schema.toList) :
    Surveyed d ws cs nodes (m.addStatement record st) schema := by
  obtain ⟨r, rfl, made, hin, hgrown, hdrawn⟩ := h.records record
  -- only this record gets a statement, and its path is in the schema already
  have hsettled : Settled d ws cs nodes r (m.addStatement r.uri st) schema := by
    refine ⟨made, hin, ?_⟩
    rw [Model.statementsOf_addStatement_self]
    constructor
    · refine hgrown.insert fun uri huri => ?_
      obtain rfl := Node.resource.inj (hobject.symm.trans huri)
      exact mem_classesOf.2 hc
    · have hcloses : Closes cs r.uri st := .inr ⟨c, hc, hobject⟩
      have hhere : Reaches ((m.statementsOf r.uri).insert st).toList r.uri .empty st.subject :=
        hsubject ▸ .here
      exact hdrawn.insert (List.Subset.refl _) (List.Subset.refl _)
        (.inr ⟨hcloses, .empty, hhere, hpath⟩)
  exact h.grow hsettled (fun k hk => Model.statementsOf_addStatement_of_ne m r.uri st hk)
    (Model.subset_addStatement m r.uri st) (List.Subset.refl _) (fun p hp => .inl hp)

/-! ## Steps -/

theorem Effect.recordUri? (h : Effect d e r m l r' m') : Encoder.recordUri? d e = none := by
  cases h <;> rfl

variable (ws nodes) in
/-- A record whose URI is new is settled when it has started. -/
theorem startRecord_settled (hnew : s.model.statementsOf (Name.mint d.recordBase id) = .empty)
    (hclassings : stepClassings d (.startRecord id) s ⊆ cs)
    (h : (startRecord d id s).refusal = none) :
    Settled d ws cs nodes (.start (Name.mint d.recordBase id)) (startRecord d id s).state.model
        (startRecord d id s).state.model.schema ∧
      ∀ p ∈ (startRecord d id s).state.model.schema.toList, p ∈ s.model.schema.toList ∨
        Shows cs (Name.mint d.recordBase id)
          ((startRecord d id s).state.model.statementsOf (Name.mint d.recordBase id)) p := by
  have hclass : ∀ c, d.recordClass = some c → ⟨Name.mint d.recordBase id, c⟩ ∈ cs := by
    intro c hc
    refine hclassings ?_
    simp [stepClassings, recordAt?, recordUri?, classesAt, hc]
  have hgrown : Grown d (classesOf cs (Name.mint d.recordBase id)) []
      (.start (Name.mint d.recordBase id))
      ((startRecord d id s).state.model.statementsOf (Name.mint d.recordBase id)) := by
    refine startRecord_grown hnew (fun c hc => ?_) h
    exact mem_classesOf.2 (hclass c (Option.mem_toList.1 hc))
  obtain ⟨-, -, ⟨-, hmodel⟩ | ⟨c, st, hc, hsubject, hpredicate, hobject, hmodel⟩⟩ := startRecord_ok h
  · rw [hmodel]
    refine ⟨settled_start _ ?_, fun p hp => .inl hp⟩
    rw [Model.statementsOf_addRecord, hnew]
  · have hss : (startRecord d id s).state.model.statementsOf (Name.mint d.recordBase id) =
        OrderedSet.empty.insert st := by
      calc (startRecord d id s).state.model.statementsOf (Name.mint d.recordBase id)
          = ((s.model.addRecord (Name.mint d.recordBase id)).addStatement
              (Name.mint d.recordBase id) st).statementsOf (Name.mint d.recordBase id) := by
            rw [hmodel, Model.statementsOf_nameClass, Model.statementsOf_addPath]
        _ = (s.model.statementsOf (Name.mint d.recordBase id)).insert st := by
            rw [Model.statementsOf_addStatement_self, Model.statementsOf_addRecord]
        _ = OrderedSet.empty.insert st := by rw [hnew]
    have hschema : (startRecord d id s).state.model.schema =
        s.model.schema.insert (AttributePath.empty.child st.predicate) := by
      rw [hmodel, Model.schema_nameClass, hpredicate]
      rfl
    -- the class is stated of the record itself, which no link leads to
    have hbegun : Drawn d ws cs [] (.start (Name.mint d.recordBase id)) .empty s.model.schema :=
      drawn_start _ _
    have hpath : Reaches OrderedSet.empty.toList (Name.mint d.recordBase id) .empty st.subject := by
      rw [hsubject]
      exact .here
    obtain ⟨hdrawn, hshows⟩ := hbegun.close hpath (.inr ⟨c, hclass c hc, hobject⟩)
    rw [← hss, ← hschema] at hdrawn hshows
    exact ⟨⟨[], List.nil_subset _, hgrown, hdrawn⟩, hshows⟩

/-- An event keeps a record settled, and every path that it adds to the schema is shown. -/
theorem Settled.effect (hr : s.record = some r) (hconsistent : Consistent ws)
    (hways : stepWays d e s ⊆ ws) (hclassings : stepClassings d e s ⊆ cs) (hmade : l ⊆ nodes)
    (heffect : Effect d e r m l r' m') (h : Settled d ws cs nodes r m m.schema) :
    Settled d ws cs nodes r' m' m'.schema ∧
      ∀ p ∈ m'.schema.toList, p ∈ m.schema.toList ∨ Shows cs r'.uri (m'.statementsOf r'.uri) p := by
  obtain ⟨made, hin, hgrown, hdrawn⟩ := h
  have hclasses : classesAt d e ⊆ classesOf cs r.uri := fun c hc =>
    mem_classesOf.2 (hclassings (mem_stepClassings hr heffect.recordUri? hc))
  have hgrown' := hgrown.trail (heffect.advance hr (List.Subset.refl _) hclasses).trail
  obtain ⟨hdrawn', hpaths⟩ := hdrawn.effect hr hconsistent hways hclassings heffect
  rw [← heffect.uri] at hgrown' hdrawn' hpaths
  exact ⟨⟨made ++ l, List.append_subset.2 ⟨hin, hmade⟩, hgrown', hdrawn'⟩, hpaths⟩

/-- The record that an event belongs to is the one that is open after it. -/
theorem recordAt?_step (h : (step d e s).refusal = none)
    (hr : (step d e s).state.record = some r) : recordAt? d e s = some r.uri := by
  rcases step_cases h with ⟨id, rfl, -⟩ | ⟨r', -, -, -, hnone, -⟩ | ⟨r', r'', hopen, hr', heffect⟩
  · obtain ⟨-, hstarted, -⟩ := startRecord_ok (h : (startRecord d id s).refusal = none)
    obtain rfl := Option.some.inj (hstarted.symm.trans hr)
    rfl
  · rw [hnone] at hr
    cases hr
  · obtain rfl := Option.some.inj (hr'.symm.trans hr)
    rw [recordAt?, heffect.recordUri?, hopen, heffect.uri]
    rfl

/-- An event leaves the statements of all records but its own as they are. -/
theorem statementsOf_step (h : (step d e s).refusal = none) (hk : recordAt? d e s ≠ some k) :
    (step d e s).state.model.statementsOf k = s.model.statementsOf k := by
  rcases step_cases h with ⟨id, rfl, -⟩ | ⟨r, -, -, -, -, hmodel⟩ | ⟨r, r', hr, -, heffect⟩
  · have hne : Name.mint d.recordBase id ≠ k := fun heq => hk (congrArg some heq)
    have hstart := startRecord_ok (h : (startRecord d id s).refusal = none)
    obtain ⟨-, -, ⟨-, hmodel⟩ | ⟨c, st, -, -, -, -, hmodel⟩⟩ := hstart
    · rw [step, hmodel, Model.statementsOf_addRecord]
    · rw [step, hmodel, Model.statementsOf_nameClass, Model.statementsOf_addPath,
        Model.statementsOf_addStatement_of_ne _ _ _ hne, Model.statementsOf_addRecord]
  · rw [hmodel]
  · refine heffect.statementsOf_of_ne fun heq => hk ?_
    rw [recordAt?, heffect.recordUri?, hr, ← heq]
    rfl

/-- An event that is accepted keeps all records fitting the schema, if a record that starts is a new
one. -/
theorem Ongoing.step (hconsistent : Consistent ws) (hways : stepWays d e s ⊆ ws)
    (hclassings : stepClassings d e s ⊆ cs) (hmade : stepMade d e s ⊆ nodes)
    (hnew : ∀ record, recordUri? d e = some record → s.model.statementsOf record = .empty)
    (haccepted : (step d e s).refusal = none) (h : Ongoing d ws cs nodes s) :
    Ongoing d ws cs nodes (step d e s).state := by
  have hmore := step_mono haccepted
  rcases step_cases haccepted with ⟨id, rfl, -⟩ | ⟨r, -, -, -, hnone, hmodel⟩ |
    ⟨r, r', hr, hr', heffect⟩
  · have hstart : (startRecord d id s).refusal = none := haccepted
    obtain ⟨hsettled, hpaths⟩ := startRecord_settled ws nodes (hnew _ rfl) hclassings hstart
    obtain ⟨-, hstarted, -⟩ := startRecord_ok hstart
    constructor
    · refine h.surveyed.grow hsettled ?_ hmore (startRecord_schema_mono hstart) hpaths
      intro k hk
      exact statementsOf_step haccepted fun heq => hk (Option.some.inj heq)
    · intro r hr
      obtain rfl := Option.some.inj (hstarted.symm.trans hr)
      exact hsettled
  · -- the record has been closed, so nothing is open
    constructor
    · rw [hmodel]
      exact h.surveyed
    · intro r' hr'
      rw [hnone] at hr'
      cases hr'
  · obtain ⟨hsettled, hpaths⟩ := (h.opened r hr).effect hr hconsistent hways hclassings hmade heffect
    constructor
    · refine h.surveyed.grow hsettled ?_ hmore heffect.schema_mono hpaths
      intro k hk
      exact heffect.statementsOf_of_ne (heffect.uri ▸ hk)
    · intro r'' hr''
      obtain rfl := Option.some.inj (hr'.symm.trans hr'')
      exact hsettled

/-- Events that start records with different URIs, all of them new, keep all records settled. -/
theorem Ongoing.each {es : List Event} (hconsistent : Consistent ws)
    (hways : ways d es s ⊆ ws) (hclassings : classings d es s ⊆ cs) (hmade : made d es s ⊆ nodes)
    (hdistinct : (recordUris d es).Nodup)
    (hnew : ∀ record ∈ recordUris d es, s.model.statementsOf record = .empty ∧
      s.record.map Record.uri ≠ some record)
    (haccepted : (Outcome.each (Encoder.step d) es s).refusal = none)
    (h : Ongoing d ws cs nodes s) :
    Ongoing d ws cs nodes (Outcome.each (Encoder.step d) es s).state := by
  induction es generalizing s with
  | nil => exact h
  | cons e rest ih =>
      obtain ⟨hfirst, hrest⟩ := Outcome.refusal_each_cons.1 haccepted
      rw [ways, Outcome.trace_cons hfirst] at hways
      rw [classings, Outcome.trace_cons hfirst] at hclassings
      rw [made, Outcome.trace_cons hfirst] at hmade
      obtain ⟨hway, hways⟩ := List.append_subset.1 hways
      obtain ⟨hclassing, hclassings⟩ := List.append_subset.1 hclassings
      obtain ⟨hmake, hmade⟩ := List.append_subset.1 hmade
      have hsplit : recordUris d (e :: rest) = (recordUri? d e).toList ++ recordUris d rest := by
        cases hrecord : recordUri? d e <;> simp [recordUris, hrecord]
      rw [hsplit] at hdistinct hnew
      obtain ⟨-, hdistinct, hapart⟩ := List.nodup_append.1 hdistinct
      obtain ⟨hnow, hlater⟩ := List.forall_mem_append.1 hnew
      have hstep := h.step hconsistent hway hclassing hmake
        (fun record hrecord => (hnow record (Option.mem_toList.2 hrecord)).1) hfirst
      rw [Outcome.state_each_cons hfirst]
      refine ih hways hclassings hmade hdistinct (fun record hrecord => ?_) hrest hstep
      -- the records that start later are other ones than that of this event
      have hother : recordAt? d e s ≠ some record := by
        intro hat
        rcases Option.or_eq_some_iff.1 hat with hstart | ⟨-, hopen⟩
        · exact hapart record (Option.mem_toList.2 hstart) record hrecord rfl
        · exact (hlater record hrecord).2 hopen
      refine ⟨(statementsOf_step hfirst hother).trans (hlater record hrecord).1, fun hopen => ?_⟩
      obtain ⟨r, hr, rfl⟩ := Option.map_eq_some_iff.1 hopen
      exact hother (recordAt?_step hfirst hr)

end Surveyed

/-! ## Both schemas -/

section Schemas

variable {d : DataModel} {classes : List String} {nodes : List Made} {r : Record}
  {ss : OrderedSet Statement}

/-- The links of a record form a forest, unless a class has statements about it. -/
theorem Grown.forest (h : Grown d classes nodes r ss)
    (hclasses : ∀ c ∈ classes, ∀ st ∈ ss.toList, st.subject ≠ c) :
    Schema.Forest r.uri ss.toList := by
  -- what a statement links to is a node that has been made
  have hlinks : ∀ st ∈ ss.toList, ∀ node, Schema.link? ss.toList st = some node →
      ∃ x ∈ nodes, x.Links d st ∧ x.uri = node := by
    intro st hst node hlink
    obtain ⟨hobject, t, ht, hsubject⟩ := Schema.link?_eq_some.1 hlink
    rcases h.resources st hst node hobject with hclass | ⟨x, hx, hx'⟩
    · exact absurd hsubject (hclasses node hclass t ht)
    · exact ⟨x, hx, hx', Node.resource.inj (hx'.object.symm.trans hobject)⟩
  refine ⟨ss.nodup, ?_, ?_⟩
  · intro st hst st' hst' node hlink hlink'
    obtain ⟨x, hx, hx', huri⟩ := hlinks st hst node hlink
    obtain ⟨y, hy, hy', huri'⟩ := hlinks st' hst' node hlink'
    obtain rfl := List.inj_on_of_nodup_map h.distinct hx hy (huri.trans huri'.symm)
    exact hx'.unique hy'
  · intro st hst hlink
    obtain ⟨x, hx, -, huri⟩ := hlinks st hst r.uri hlink
    exact (List.nodup_cons.1 h.distinct_uris).1 (huri ▸ List.mem_map_of_mem hx)

/-- A path leads to an entity that nothing is stated about. -/
def LeadsToEmpty (d : DataModel) (nodes : List Made) (m : Model) (p : AttributePath) : Prop :=
  ∃ record path, ∃ x ∈ nodes, ∃ st ∈ (m.statementsOf record).toList, x.Links d st ∧
    Reaches (m.statementsOf record).toList record path st.subject ∧
    (∀ st' ∈ (m.statementsOf record).toList, st'.subject ≠ x.uri) ∧ p = path.child st.predicate

/-- A statement that ends a path links to nothing. -/
theorem Closes.link?_eq_none {cs : List Classing} {record : String} {st : Statement}
    (h : Closes cs record st)
    (hclasses : ∀ c ∈ cs, c.record = record → ∀ t ∈ ss.toList, t.subject ≠ c.uri) :
    Schema.link? ss.toList st = none := by
  refine Schema.link?_eq_none.2 fun node hobject t ht => ?_
  rcases h with ⟨v, hv⟩ | ⟨c, hc, hclass⟩
  · rw [hv] at hobject
    cases hobject
  · rw [hclass] at hobject
    obtain rfl := Node.resource.inj hobject
    exact hclasses _ hc rfl t ht

/-- Take a model whose records fit a schema, and in which no class has statements about it.  The
paths that are derived from the statements are those of the model and those that lead to entities
which nothing is stated about, and apart from the latter they are in the schema. -/
theorem Surveyed.mem_derivedSchema {ws : List Way} {cs : List Classing} {m : Model}
    {schema : OrderedSet AttributePath} (h : Surveyed d ws cs nodes m schema)
    (hclasses : ∀ c ∈ cs, ∀ st ∈ (m.statementsOf c.record).toList, st.subject ≠ c.uri)
    (p : AttributePath) :
    (p ∈ m.derivedSchema.toList → p ∈ schema.toList ∨ LeadsToEmpty d nodes m p) ∧
      (p ∈ m.schema.toList ∨ LeadsToEmpty d nodes m p → p ∈ m.derivedSchema.toList) := by
  have hclasses : ∀ record, ∀ c ∈ cs, c.record = record →
      ∀ t ∈ (m.statementsOf record).toList, t.subject ≠ c.uri := by
    rintro record c hc rfl
    exact hclasses c hc
  have hforest : ∀ record, Schema.Forest record (m.statementsOf record).toList := by
    intro record
    obtain ⟨r, rfl, made, -, hgrown, -⟩ := h.records record
    exact hgrown.forest fun c hc => hclasses r.uri _ (mem_classesOf.1 hc) rfl
  rw [Model.mem_derivedSchema]
  constructor
  · rintro ⟨record, hp⟩
    obtain ⟨path, st, hst, hpath, hlink, rfl⟩ := (Schema.mem_paths_iff (hforest record) p).1 hp
    obtain ⟨r, rfl, made, hmade, -, hdrawn⟩ := h.records record
    rcases hdrawn.statements st hst with ⟨x, hx, hlinks⟩ | ⟨-, path', hpath', hschema⟩
    · exact .inr ⟨r.uri, path, x, hmade hx, st, hst, hlinks, hpath,
        Schema.link?_eq_none.1 hlink x.uri hlinks.object, rfl⟩
    · -- only one path leads to the subject
      rw [(hforest r.uri).unique hpath hpath' ⟨st, hst, rfl⟩]
      exact .inl hschema
  · rintro (hp | ⟨record, path, x, -, st, hst, hlinks, hpath, hempty, rfl⟩)
    · obtain ⟨record, path, st, hst, hcloses, hpath, rfl⟩ := h.covered p hp
      have hlink := hcloses.link?_eq_none (hclasses record)
      exact ⟨record, (Schema.mem_paths_iff (hforest record) _).2 ⟨path, st, hst, hpath, hlink, rfl⟩⟩
    · have hlink : Schema.link? (m.statementsOf record).toList st = none := by
        refine Schema.link?_eq_none.2 fun node hobject => ?_
        obtain rfl := Node.resource.inj (hlinks.object.symm.trans hobject)
        exact hempty
      exact ⟨record, (Schema.mem_paths_iff (hforest record) _).2 ⟨path, st, hst, hpath, hlink, rfl⟩⟩

/-- The records of a run fit its schema if their URIs are different and the ways to shared entities
consistent; further classes may be stated afterwards. -/
theorem surveyed_run {es : List Event} {cs : List Classing} (haccepted : (run d es).refusal = none)
    (hdistinct : (recordUris d es).Nodup) (hclassings : classings d es initial ⊆ cs)
    (hconsistent : Consistent (ways d es initial)) :
    Surveyed d (ways d es initial) cs (made d es initial) (run d es).state.model
      (run d es).state.model.schema := by
  have hnew : ∀ record ∈ recordUris d es, initial.model.statementsOf record = .empty ∧
      initial.record.map Record.uri ≠ some record := fun _ _ => ⟨rfl, by simp [initial]⟩
  exact (ongoing_initial.each hconsistent (List.Subset.refl _) hclassings (List.Subset.refl _)
    hdistinct hnew haccepted).surveyed

end Schemas

end Encoder
end Recast
