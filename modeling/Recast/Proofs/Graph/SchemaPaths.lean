import Recast.Proofs.Graph.Move

/-!
# SchemaPaths — the schema of a run is what its values hang on

A path is in the schema if and only if links lead along it from a record to the statement of a value
or of a class: `Encoder.mem_schema_run_iff`.  For the paths are kept beside the statements, and what
ties them together is the key of a node: it tells the names that lead to the node (`pathOf`), as long
as no name is empty or has a slash in it.

* `Encoder.Leads`, `Encoder.HasPath` — the paths of a model, by its statements alone;
* `Encoder.Charted` — the statements and the schema of a model fit each other;
* `Encoder.Anchored` — the nodes that events can be about are where their keys say.
-/

namespace Recast
namespace Encoder

/-! ## Paths in the statements -/

/-- Links lead from a record along a path to a node; the objects of links are among some nodes. -/
inductive Leads (nodes : List String) (ss : OrderedSet Statement) (record : String) :
    AttributePath → String → Prop
  | here : Leads nodes ss record .empty record
  | link {path : AttributePath} {st : Statement} {node : String}
      (hsubject : Leads nodes ss record path st.subject) (hst : st ∈ ss.toList)
      (hobject : st.object = .resource node) (hnode : node ∈ nodes) :
      Leads nodes ss record (path.child st.predicate) node

def Ends (nodes : List String) (st : Statement) : Prop :=
  (∃ v, st.object = .literal v) ∨
    st.predicate = Name.typePredicate ∧ ∃ c ∉ nodes, st.object = .resource c

/-- A model has a path: within one of its records, links lead along it up to a value or a class. -/
def HasPath (nodes : List String) (m : Model) (p : AttributePath) : Prop :=
  ∃ record path, ∃ st ∈ (m.statementsOf record).toList,
    Leads nodes (m.statementsOf record) record path st.subject ∧ Ends nodes st ∧
      p = path.child st.predicate

theorem Leads.mono {nodes : List String} {ss ss' : OrderedSet Statement} {record node : String}
    {path : AttributePath} (hss : ss.toList ⊆ ss'.toList) (h : Leads nodes ss record path node) :
    Leads nodes ss' record path node := by
  induction h with
  | here => exact .here
  | link _ hst hobject hnode ih => exact .link ih (hss hst) hobject hnode

theorem HasPath.mono {nodes : List String} {m m' : Model} {p : AttributePath}
    (hss : ∀ record, (m.statementsOf record).toList ⊆ (m'.statementsOf record).toList)
    (h : HasPath nodes m p) : HasPath nodes m' p := by
  obtain ⟨record, path, st, hst, hleads, hends, hp⟩ := h
  exact ⟨record, path, st, hss record hst, hleads.mono (hss record), hends, hp⟩

/-! ## Where URIs stand -/

/-- A URI stands at a path below a record: it is that of the record, or that of a node made for the
key that the path belongs to. -/
def StandsAt (d : DataModel) (record uri : String) (path : AttributePath) : Prop :=
  (uri = record ∧ path = .empty) ∨ ∃ key n, uri = nodeUri record key n ∧ path = pathOf d key

/-- No URI stands at two paths. -/
theorem StandsAt.unique {d : DataModel} {record uri : String} {path path' : AttributePath}
    (h : StandsAt d record uri path) (h' : StandsAt d record uri path') : path = path' := by
  rcases h with ⟨rfl, rfl⟩ | ⟨key, n, huri, rfl⟩
  · rcases h' with ⟨-, rfl⟩ | ⟨key', n', huri', -⟩
    · rfl
    · exact absurd huri'.symm (nodeUri_ne _ _ _)
  · rcases h' with ⟨hrecord, -⟩ | ⟨key', n', huri', rfl⟩
    · exact absurd (huri.symm.trans hrecord) (nodeUri_ne _ _ _)
    · rw [(nodeUri_inj (huri.symm.trans huri')).1]

/-! ## What moves keep -/

/-- A statement of a record fits a schema: its subject stands at a path, which either leads on to
its object or ends here and is in the schema. -/
def Sound (d : DataModel) (nodes : List String) (schema : OrderedSet AttributePath)
    (record : String) (st : Statement) : Prop :=
  ∃ path, StandsAt d record st.subject path ∧
    ((Ends nodes st ∧ path.child st.predicate ∈ schema.toList) ∨
      ∃ node ∈ nodes, st.object = .resource node ∧
        StandsAt d record node (path.child st.predicate))

/-- All statements of a model fit its schema, and the schema has no further paths. -/
structure Charted (d : DataModel) (nodes : List String) (m : Model) : Prop where
  sound : ∀ record, ∀ st ∈ (m.statementsOf record).toList, Sound d nodes m.schema record st
  covered : ∀ p ∈ m.schema.toList, HasPath nodes m p

/-- A node of a record stands at its path, and links lead to it. -/
structure Placed (d : DataModel) (nodes : List String) (record : String)
    (ss : OrderedSet Statement) (node : Scope) : Prop where
  path : node.path = pathOf d node.key
  stands : StandsAt d record node.uri node.path
  leads : Leads nodes ss record node.path node.uri

/-- The nodes that events can be about are placed: open entities, and shared ones by their keys. -/
structure Anchored (d : DataModel) (nodes : List String) (r : Record)
    (ss : OrderedSet Statement) : Prop where
  entities : ∀ node ∈ r.entities, Placed d nodes r.uri ss node
  shared : ∀ key uri, Assoc.get? key r.shared = some uri →
    StandsAt d r.uri uri (pathOf d key) ∧ Leads nodes ss r.uri (pathOf d key) uri

section Moves

variable {d : DataModel} {nodes names classes : List String} {r r' : Record} {m m' : Model}
  {made : List Made} {record : String} {ss : OrderedSet Statement}

theorem Sound.mono {schema schema' : OrderedSet AttributePath} {st : Statement}
    (hschema : schema.toList ⊆ schema'.toList) (h : Sound d nodes schema record st) :
    Sound d nodes schema' record st := by
  obtain ⟨path, hsubject, ⟨hends, hpath⟩ | hlink⟩ := h
  · exact ⟨path, hsubject, .inl ⟨hends, hschema hpath⟩⟩
  · exact ⟨path, hsubject, .inr hlink⟩

theorem Placed.mono {ss' : OrderedSet Statement} {node : Scope} (hss : ss.toList ⊆ ss'.toList)
    (h : Placed d nodes record ss node) : Placed d nodes record ss' node :=
  ⟨h.path, h.stands, h.leads.mono hss⟩

theorem Anchored.mono {ss' : OrderedSet Statement} (hss : ss.toList ⊆ ss'.toList)
    (h : Anchored d nodes r ss) : Anchored d nodes r ss' := by
  constructor
  · intro node hnode
    exact (h.entities node hnode).mono hss
  · intro key uri huri
    obtain ⟨hkey, hplaced⟩ := h.shared key uri huri
    exact ⟨hkey, hplaced.mono hss⟩

/-- The path of an entity inside a placed node belongs to its key. -/
theorem Placed.path_entityIn {parent : Scope} {name : String}
    (h : Placed d nodes record ss parent) (hname : PlainName name) (uri : String) :
    (entityIn d parent name uri).path = pathOf d (childKey parent.key name) := by
  rw [pathOf_childKey d parent.key hname, ← h.path]
  rfl

/-- Whatever events can be about is placed. -/
theorem Anchored.reached {node : Scope} (h : Anchored d nodes r ss)
    (hnames : ∀ n ∈ names, PlainName n) (hnode : Reached d names r node) :
    Placed d nodes r.uri ss node := by
  induction hnode with
  | current =>
      unfold Record.current
      cases hentities : r.entities with
      | nil => exact ⟨rfl, .inl ⟨rfl, rfl⟩, .here⟩
      | cons inner outer => exact h.entities inner (hentities ▸ List.mem_cons_self)
  | @shared parent name uri _ hname huri ih =>
      have hpath := ih.path_entityIn (hnames name hname) uri
      obtain ⟨hstands, hleads⟩ := h.shared _ _ huri
      exact ⟨hpath, hpath.symm ▸ hstands, hpath.symm ▸ hleads⟩

/-- A node that is made inside a placed one and linked from there is placed. -/
theorem Placed.make {parent : Scope} {name : String} {shared : Bool} {st : Statement}
    (h : Placed d nodes r.uri ss parent) (hname : PlainName name)
    (link : (madeIn r parent name shared).Links d st)
    (hnode : (madeIn r parent name shared).uri ∈ nodes) :
    Placed d nodes r.uri (ss.insert st)
      (entityIn d parent name (madeIn r parent name shared).uri) := by
  have hpath := h.path_entityIn hname (madeIn r parent name shared).uri
  refine ⟨hpath, .inr ⟨_, _, rfl, hpath⟩, ?_⟩
  have hleads : Leads nodes (ss.insert st) r.uri parent.path st.subject := by
    rw [link.subject]
    exact h.leads.mono (ss.subset_insert st)
  have hlinked := Leads.link hleads (OrderedSet.mem_insert.2 (.inr rfl)) link.object hnode
  rwa [link.predicate] at hlinked

/-- The link to a node that is made inside a placed one is sound. -/
theorem Placed.sound_link {parent : Scope} {name : String} {shared : Bool} {st : Statement}
    (h : Placed d nodes r.uri ss parent) (hname : PlainName name)
    (link : (madeIn r parent name shared).Links d st)
    (hnode : (madeIn r parent name shared).uri ∈ nodes) (schema : OrderedSet AttributePath) :
    Sound d nodes schema r.uri st := by
  refine ⟨parent.path, link.subject ▸ h.stands, .inr ⟨_, hnode, link.object, ?_⟩⟩
  rw [link.predicate]
  exact .inr ⟨_, _, rfl, h.path_entityIn hname (madeIn r parent name shared).uri⟩

/-- A model stays charted when its new statements are sound and its new paths are there. -/
theorem Charted.grow (h : Charted d nodes m)
    (hmore : ∀ k, (m.statementsOf k).toList ⊆ (m'.statementsOf k).toList)
    (hss : ∀ k, ∀ st ∈ (m'.statementsOf k).toList,
      st ∈ (m.statementsOf k).toList ∨ Sound d nodes m'.schema k st)
    (hschema : m.schema.toList ⊆ m'.schema.toList)
    (hpaths : ∀ p ∈ m'.schema.toList, p ∈ m.schema.toList ∨ HasPath nodes m' p) :
    Charted d nodes m' := by
  constructor
  · intro k st hst
    rcases hss k st hst with hold | hnew
    · exact (h.sound k st hold).mono hschema
    · exact hnew
  · intro p hp
    rcases hpaths p hp with hold | hnew
    · exact (h.covered p hold).mono hmore
    · exact hnew

/-- Linking a node keeps a model charted. -/
theorem Charted.link (h : Charted d nodes m) {st : Statement}
    (hst : Sound d nodes m.schema record st) : Charted d nodes (m.addStatement record st) := by
  refine h.grow (Model.subset_addStatement m record st) ?_ (fun _ hp => hp) (fun p hp => .inl hp)
  intro k st' hst'
  rcases Model.mem_addStatement hst' with hold | ⟨rfl, rfl⟩
  · exact .inl hold
  · exact .inr hst

/-- Stating a value or a class of a placed node keeps a model charted. -/
theorem Charted.state (h : Charted d nodes m) {node : Scope} {st : Statement}
    (hnode : Placed d nodes record (m.statementsOf record) node)
    (hsubject : st.subject = node.uri) (hends : Ends nodes st) :
    Charted d nodes ((m.addStatement record st).addPath (node.path.child st.predicate)) := by
  have hmore := Model.subset_addStatement m record st
  refine h.grow hmore ?_ (m.schema.subset_insert _) ?_
  · intro k st' hst'
    rcases Model.mem_addStatement hst' with hold | ⟨rfl, rfl⟩
    · exact .inl hold
    · -- the path of the new statement is the one that is added
      exact .inr ⟨node.path, hsubject ▸ hnode.stands,
        .inl ⟨hends, OrderedSet.mem_insert.2 (.inr rfl)⟩⟩
  · intro p hp
    rcases OrderedSet.mem_insert.1 hp with hold | rfl
    · exact .inl hold
    · have hin : st ∈ ((m.addStatement record st).statementsOf record).toList := by
        rw [Model.statementsOf_addStatement_self]
        exact OrderedSet.mem_insert.2 (.inr rfl)
      exact .inr ⟨record, node.path, st, hin, hsubject ▸ hnode.leads.mono (hmore record), hends,
        rfl⟩

theorem Charted.nameClass (h : Charted d nodes m) (c : String) :
    Charted d nodes (m.nameClass c) :=
  h.grow (by simp) (fun k st hst => .inl (by simpa using hst)) (by simp)
    (fun p hp => .inl (by simpa using hp))

/-- Making a node inside a placed one and linking it from there keeps the rest as it was, and the new
node is placed. -/
theorem made_charted {parent : Scope} {name : String} {shared : Bool} {st : Statement}
    (h : Charted d nodes m) (ha : Anchored d nodes r (m.statementsOf r.uri))
    (hparent : Placed d nodes r.uri (m.statementsOf r.uri) parent) (hname : PlainName name)
    (link : (madeIn r parent name shared).Links d st)
    (hnode : (madeIn r parent name shared).uri ∈ nodes) :
    Charted d nodes (m.addStatement r.uri st) ∧
      Anchored d nodes r ((m.addStatement r.uri st).statementsOf r.uri) ∧
      Placed d nodes r.uri ((m.addStatement r.uri st).statementsOf r.uri)
        (entityIn d parent name (madeIn r parent name shared).uri) := by
  refine ⟨h.link (hparent.sound_link hname link hnode _),
    ha.mono (Model.subset_addStatement m r.uri st r.uri), ?_⟩
  rw [Model.statementsOf_addStatement_self]
  exact hparent.make hname link hnode

/-- Every move keeps the model charted, and the record anchored in it. -/
theorem move_charted (hnames : ∀ n ∈ names, PlainName n) (hclasses : ∀ c ∈ classes, c ∉ nodes)
    (hmove : Move d names classes r m made r' m') (hmade : ∀ x ∈ made, x.uri ∈ nodes)
    (h : Charted d nodes m) (ha : Anchored d nodes r (m.statementsOf r.uri)) :
    Charted d nodes m' ∧ Anchored d nodes r' (m'.statementsOf r'.uri) := by
  cases hmove with
  | @enter name st hname link =>
      obtain ⟨hcharted, hkept, hplaced⟩ := made_charted h ha (ha.reached hnames .current)
        (hnames _ hname) link (hmade _ (List.mem_singleton_self _))
      refine ⟨hcharted, fun node hnode => ?_, hkept.shared⟩
      -- the new node is the inmost one
      rcases List.mem_cons.1 hnode with rfl | hnode
      · exact hplaced
      · exact hkept.entities node hnode
  | @share parent name st hparent hname hnew link =>
      have hparent := ha.reached hnames hparent
      obtain ⟨hcharted, hkept, hplaced⟩ := made_charted h ha hparent (hnames _ hname) link
        (hmade _ (List.mem_singleton_self _))
      refine ⟨hcharted, hkept.entities, fun key uri hget => ?_⟩
      rw [Record.share, Assoc.get?_put] at hget
      -- the key is that of the new node, or it was shared before
      split at hget
      · rename_i hkey
        obtain rfl := Option.some.inj hget
        rw [← hkey]
        exact hparent.path_entityIn (hnames _ hname) (madeIn r parent name true).uri ▸
          ⟨hplaced.stands, hplaced.leads⟩
      · exact hkept.shared key uri hget
  | @classify c st hclass hsubject hpredicate hobject =>
      have hnode := ha.reached hnames .current
      have hends : Ends nodes st := .inr ⟨hpredicate, c, hclasses c hclass, hobject⟩
      have hstated := h.state hnode hsubject hends
      rw [hpredicate] at hstated
      refine ⟨hstated.nameClass c, ?_⟩
      rw [Model.statementsOf_nameClass]
      exact ha.mono (Model.subset_addStatement m r.uri st r.uri)
  | @value node st v hnode hsubject hobject =>
      have hends : Ends nodes st := .inl ⟨v, hobject⟩
      exact ⟨h.state (ha.reached hnames hnode) hsubject hends,
        ha.mono (Model.subset_addStatement m r.uri st r.uri)⟩
  | @leave inner outer hentities =>
      refine ⟨h, fun node hnode => ?_, ha.shared⟩
      exact ha.entities node (hentities ▸ List.mem_cons_of_mem _ hnode)

/-- Whatever happens to a record one after the other, the schema keeps fitting the statements. -/
theorem trail_charted (hnames : ∀ n ∈ names, PlainName n) (hclasses : ∀ c ∈ classes, c ∉ nodes)
    (htrail : Trail d names classes r m made r' m') (hmade : ∀ x ∈ made, x.uri ∈ nodes)
    (h : Charted d nodes m) (ha : Anchored d nodes r (m.statementsOf r.uri)) :
    Charted d nodes m' ∧ Anchored d nodes r' (m'.statementsOf r'.uri) := by
  induction htrail with
  | stay => exact ⟨h, ha⟩
  | move first _ ih =>
      obtain ⟨hfirst, hrest⟩ := List.forall_mem_append.1 hmade
      obtain ⟨h', ha'⟩ := move_charted hnames hclasses first hfirst h ha
      exact ih hrest h' ha'

end Moves

/-! ## Runs -/

/-- The model of a state is charted, and the record at hand is anchored in it. -/
structure Mapped (d : DataModel) (nodes : List String) (s : State) : Prop where
  charted : Charted d nodes s.model
  anchored : ∀ r, s.record = some r → Anchored d nodes r (s.model.statementsOf r.uri)

section Runs

variable {d : DataModel} {nodes names classes : List String} {s : State}

theorem mapped_initial (d : DataModel) (nodes : List String) : Mapped d nodes initial where
  charted := ⟨fun _ st hst => absurd hst List.not_mem_nil, fun p hp => absurd hp List.not_mem_nil⟩
  anchored := fun r hr => by cases hr

/-- The start of a record keeps a state mapped. -/
theorem Mapped.startRecord (h : Mapped d nodes s) {id : String}
    (hclasses : ∀ c ∈ d.recordClass, c ∉ nodes)
    (haccepted : (startRecord d id s).refusal = none) :
    Mapped d nodes (startRecord d id s).state := by
  obtain ⟨-, hstarted, htrail⟩ := startRecord_trail []
    (List.Subset.refl d.recordClass.toList) haccepted
  -- the new record has no statements yet
  have hadded : Charted d nodes (s.model.addRecord (Name.mint d.recordBase id)) :=
    h.charted.grow (by simp) (fun k st hst => .inl (by simpa using hst)) (fun _ hp => hp)
      (fun _ hp => .inl hp)
  have hanchored : Anchored d nodes (.start (Name.mint d.recordBase id))
      ((s.model.addRecord (Name.mint d.recordBase id)).statementsOf
        (Record.start (Name.mint d.recordBase id)).uri) :=
    ⟨fun _ hnode => absurd hnode List.not_mem_nil, fun _ _ huri => by cases huri⟩
  obtain ⟨hcharted, hanchored'⟩ := trail_charted (fun _ hn => absurd hn List.not_mem_nil)
    (fun c hc => hclasses c (Option.mem_toList.1 hc)) htrail
    (fun _ hx => absurd hx List.not_mem_nil) hadded hanchored
  refine ⟨hcharted, fun r hr => ?_⟩
  obtain rfl := Option.some.inj (hstarted.symm.trans hr)
  exact hanchored'

/-- Every event keeps a state mapped. -/
theorem Mapped.step (h : Mapped d nodes s) {e : Event} (hnames : ∀ n ∈ entityNames e, PlainName n)
    (hclasses : ∀ c ∈ classesAt d e, c ∉ nodes) (hmade : ∀ x ∈ stepMade d e s, x.uri ∈ nodes)
    (haccepted : (step d e s).refusal = none) : Mapped d nodes (step d e s).state := by
  rcases step_cases haccepted with ⟨id, rfl, -⟩ | ⟨r, -, -, -, hnone, hmodel⟩ |
    ⟨r, r', hr, hr', heffect⟩
  · exact h.startRecord (fun c hc => hclasses c (Option.mem_toList.2 hc)) haccepted
  · refine ⟨hmodel.symm ▸ h.charted, fun r' hr' => ?_⟩
    rw [hnone] at hr'
    cases hr'
  · have hadvance := heffect.advance hr (fun _ hn => hn) (fun _ hc => hc)
    obtain ⟨hcharted, hanchored⟩ := trail_charted hnames hclasses hadvance.trail hmade
      h.charted (h.anchored r hr)
    refine ⟨hcharted, fun r'' hr'' => ?_⟩
    obtain rfl := Option.some.inj (hr'.symm.trans hr'')
    exact hanchored

/-- Events that are accepted keep a state mapped. -/
theorem Mapped.each (h : Mapped d nodes s) {es : List Event}
    (hnames : ∀ e ∈ es, ∀ n ∈ entityNames e, PlainName n)
    (hclasses : ∀ e ∈ es, ∀ c ∈ classesAt d e, c ∉ nodes)
    (hmade : ∀ x ∈ made d es s, x.uri ∈ nodes)
    (haccepted : (Outcome.each (Encoder.step d) es s).refusal = none) :
    Mapped d nodes (Outcome.each (Encoder.step d) es s).state := by
  induction es generalizing s with
  | nil => exact h
  | cons e rest ih =>
      obtain ⟨hfirst, hrest⟩ := Outcome.refusal_each_cons.1 haccepted
      rw [made, Outcome.trace_cons hfirst] at hmade
      obtain ⟨hnow, hlater⟩ := List.forall_mem_append.1 hmade
      obtain ⟨hname, hothers⟩ := List.forall_mem_cons.1 hnames
      obtain ⟨hclass, hmore⟩ := List.forall_mem_cons.1 hclasses
      rw [Outcome.state_each_cons hfirst]
      exact ih (h.step hname hclass hnow hfirst) hothers hmore hlater hrest

/-- Along a chain of links every node stands at the path of the chain. -/
theorem Charted.stands {m : Model} {record node : String} {path : AttributePath}
    (h : Charted d nodes m) (hleads : Leads nodes (m.statementsOf record) record path node) :
    StandsAt d record node path := by
  induction hleads with
  | here => exact .inl ⟨rfl, rfl⟩
  | @link path st node _ hst hobject hnode ih =>
      obtain ⟨path', hsubject, ⟨hends, -⟩ | ⟨node', -, hobject', hstands⟩⟩ :=
        h.sound record st hst
      · -- what ends a path is no link
        rcases hends with ⟨v, hv⟩ | ⟨-, c, hc, hclass⟩
        · rw [hobject] at hv
          cases hv
        · rw [hobject] at hclass
          exact absurd (Node.resource.inj hclass ▸ hnode) hc
      · rw [hobject] at hobject'
        rw [Node.resource.inj hobject', ih.unique hsubject]
        exact hstands

/-- A model that is charted has the paths of its schema and no other ones. -/
theorem Charted.mem_schema_iff {m : Model} (h : Charted d nodes m) (p : AttributePath) :
    p ∈ m.schema.toList ↔ HasPath nodes m p := by
  refine ⟨h.covered p, fun ⟨record, path, st, hst, hleads, hends, hp⟩ => ?_⟩
  subst hp
  -- the statement at the end of the chain fits the schema, at the path that the chain leads along
  obtain ⟨path', hsubject, ⟨-, hpath⟩ | ⟨node, hnode, hobject, -⟩⟩ := h.sound record st hst
  · rw [(h.stands hleads).unique hsubject]
    exact hpath
  · rcases hends with ⟨v, hv⟩ | ⟨-, c, hc, hclass⟩
    · rw [hobject] at hv
      cases hv
    · rw [hobject] at hclass
      exact absurd (Node.resource.inj hclass ▸ hnode) hc

end Runs

/-- Take events that are all accepted, in which no name of an entity is empty or has a slash in it,
and no node is named as a class.  The schema has a path if and only if, within one record, links
lead along it to a statement of a value or of a class. -/
theorem mem_schema_run_iff {d : DataModel} {es : List Event} (haccepted : (run d es).refusal = none)
    (hnames : ∀ e ∈ es, ∀ n ∈ entityNames e, PlainName n)
    (hclasses : ∀ e ∈ es, ∀ c ∈ classesAt d e, c ∉ (made d es initial).map Made.uri)
    (p : AttributePath) :
    p ∈ (run d es).state.model.schema.toList ↔
      HasPath ((made d es initial).map Made.uri) (run d es).state.model p := by
  have hmapped := (mapped_initial d ((made d es initial).map Made.uri)).each hnames hclasses
    (fun _ hx => List.mem_map_of_mem hx) haccepted
  exact hmapped.charted.mem_schema_iff p

/-- Two records with entities of both kinds, a class and an absolute name. -/
def described : List Event :=
  [.startRecord "r", .literal "a.b" "x", .startEntity "a", .literal "c.d" "y",
    .literal "rdf:type" "http://example.org/C", .endEntity, .endRecord,
    .startRecord "q", .literal "http://example.org/b.c" "z", .literal "a.b" "w", .endRecord]

theorem mem_schema_run_iff_described :
    HasPath ((made .standard described initial).map Made.uri) (run .standard described).state.model
      ⟨["a", "c", "d"].map (predicate .standard)⟩ := by
  have haccepted : (run .standard described).refusal = none := by decide +kernel
  have hnames : ∀ e ∈ described, ∀ n ∈ entityNames e, PlainName n := by decide +kernel
  have hclasses : ∀ e ∈ described, ∀ c ∈ classesAt .standard e,
      c ∉ (made .standard described initial).map Made.uri := by decide +kernel
  exact (mem_schema_run_iff haccepted hnames hclasses _).1 (by decide +kernel)

end Encoder
end Recast
