import Mathlib.Data.List.Nodup
import Recast.Proofs.Graph.Move

/-!
# EntityTree — the nodes of a record

The nodes that are made for the entities of a record have URIs of their own, and each of them is
linked once, when it is made, from the record or from a node made before it: they form a tree.
Nothing is asked of the names of the entities.

* `Encoder.Rooted` — nodes one below the other;
* `Encoder.Grown` — what every move keeps true of the nodes made so far;
* `Encoder.Nodes`, `Encoder.Tree` — the nodes of a record and their links;
* `Encoder.record_tree` — the events of a record lead to these.
-/

namespace Recast

namespace Encoder

/-! ## Nodes one below the other -/

/-- Every node stands below the record or a node made before it. -/
def Rooted (record : String) (nodes : List Made) : Prop :=
  ∀ i x, nodes[i]? = some x → x.parent ∈ record :: (nodes.take i).map Made.uri

theorem rooted_nil (record : String) : Rooted record [] := by
  intro i x hi
  cases hi

/-- A node below the record or an earlier node can be added. -/
theorem Rooted.concat {record : String} {nodes : List Made} (h : Rooted record nodes) {x : Made}
    (hx : x.parent ∈ record :: nodes.map Made.uri) : Rooted record (nodes ++ [x]) := by
  intro i y hi
  rcases Nat.lt_or_ge i nodes.length with hlt | hge
  · rw [List.getElem?_append_left hlt] at hi
    rw [List.take_append_of_le_length (Nat.le_of_lt hlt)]
    exact h i y hi
  · -- the only place behind the nodes is that of the last one
    rw [List.getElem?_append_right hge, List.getElem?_singleton] at hi
    split at hi
    · obtain rfl := Option.some.inj hi
      obtain rfl : i = nodes.length := by omega
      rw [List.take_left]
      exact hx
    · cases hi

/-! ## What moves keep -/

/-- The nodes made so far in a record, which has some statements: they are numbered key by key, stand
below the record, and are linked. -/
structure Grown (d : DataModel) (classes : List String) (made : List Made) (r : Record)
    (ss : OrderedSet Statement) : Prop where
  counted : ∀ x ∈ made, ∃ n ≤ r.count x.key, x.uri = nodeUri r.uri x.key n
  distinct : (made.map Made.uri).Nodup
  rooted : Rooted r.uri made
  entities : ∀ node ∈ r.entities, node.uri ∈ made.map Made.uri
  shared : ∀ key uri, Assoc.get? key r.shared = some uri → uri ∈ made.map Made.uri
  keys : (made.filter Made.shared).map Made.key = Assoc.keys r.shared
  single : (Assoc.keys r.shared).Nodup
  linked : ∀ x ∈ made, ∃ st ∈ ss.toList, x.Links d st
  resources : ∀ st ∈ ss.toList, ∀ uri, st.object = .resource uri →
    uri ∈ classes ∨ ∃ x ∈ made, x.Links d st

section Grown

variable {d : DataModel} {names classes : List String} {made : List Made} {r r' : Record}
  {m m' : Model} {ss : OrderedSet Statement}

theorem grown_start (uri : String) : Grown d classes [] (.start uri) .empty where
  counted := by simp
  distinct := by simp
  rooted := rooted_nil uri
  entities := by simp [Record.start]
  shared := by simp [Record.start, Assoc.get?]
  keys := rfl
  single := List.nodup_nil
  linked := by simp
  resources := by simp [OrderedSet.empty]

/-- The nodes that events can be about have been made in the record. -/
theorem Grown.reached (h : Grown d classes made r ss) {node : Scope}
    (hnode : Reached d names r node) : node.uri ∈ r.uri :: made.map Made.uri := by
  cases hnode with
  | current =>
      unfold Record.current
      cases hentities : r.entities with
      | nil => exact List.mem_cons_self
      | cons inner outer =>
          exact List.mem_cons_of_mem _ (h.entities inner (hentities ▸ List.mem_cons_self))
  | shared _ _ huri => exact List.mem_cons_of_mem _ (h.shared _ _ huri)

/-- The next node for a key is a new one. -/
theorem Grown.fresh (h : Grown d classes made r ss) (parent : Scope) (name : String)
    (shared : Bool) : (madeIn r parent name shared).uri ∉ made.map Made.uri := by
  intro hmem
  obtain ⟨x, hx, huri⟩ := List.mem_map.1 hmem
  obtain ⟨n, hn, hxuri⟩ := h.counted x hx
  rw [hxuri, madeIn_uri] at huri
  obtain ⟨hkey, hnumber⟩ := nodeUri_inj huri
  rw [hkey] at hn
  omega

/-- A node that is made below the record and linked is one more. -/
theorem Grown.make (h : Grown d classes made r ss) {parent : Scope} {name : String} {shared : Bool}
    {st : Statement} (hparent : Reached d names r parent)
    (link : (madeIn r parent name shared).Links d st) (huri : r'.uri = r.uri)
    (hcounts : r'.counts =
      Assoc.put (childKey parent.key name) (r.count (childKey parent.key name) + 1) r.counts)
    (hentities : ∀ node ∈ r'.entities,
      node ∈ r.entities ∨ node.uri = (madeIn r parent name shared).uri)
    (hshared : ∀ key uri, Assoc.get? key r'.shared = some uri →
      Assoc.get? key r.shared = some uri ∨ uri = (madeIn r parent name shared).uri)
    (hkeys : Assoc.keys r'.shared =
      Assoc.keys r.shared ++ if shared then [childKey parent.key name] else [])
    (hsingle : (Assoc.keys r'.shared).Nodup) :
    Grown d classes (made ++ [madeIn r parent name shared]) r' (ss.insert st) := by
  -- only the count of the new key changes
  have hcount : ∀ key, r'.count key = if childKey parent.key name = key then
      r.count (childKey parent.key name) + 1 else r.count key := by
    intro key
    rw [Record.count, hcounts, Assoc.get?_put]
    split <;> rfl
  have hlast : (madeIn r parent name shared).uri ∈
      (made ++ [madeIn r parent name shared]).map Made.uri := by simp
  have hmore : ∀ uri, uri ∈ made.map Made.uri →
      uri ∈ (made ++ [madeIn r parent name shared]).map Made.uri := by
    intro uri hmem
    rw [List.map_append]
    exact List.mem_append_left _ hmem
  refine ⟨?counted, ?distinct, ?rooted, ?entities, ?shared, ?keys, hsingle, ?linked,
    ?resources⟩
  case counted =>
    intro x hx
    rw [huri]
    rcases List.mem_append.1 hx with hx | hx
    · obtain ⟨n, hn, hxuri⟩ := h.counted x hx
      refine ⟨n, ?_, hxuri⟩
      rw [hcount]
      split
      · rename_i hkey
        rw [hkey]
        omega
      · exact hn
    · obtain rfl := List.mem_singleton.1 hx
      have hown : r'.count (childKey parent.key name) = r.count (childKey parent.key name) + 1 :=
        (hcount _).trans (if_pos rfl)
      exact ⟨r.count (childKey parent.key name) + 1, Nat.le_of_eq hown.symm, rfl⟩
  case distinct =>
    rw [List.map_append, List.nodup_append]
    refine ⟨h.distinct, by simp, ?_⟩
    intro uri hmem uri' hmem' heq
    obtain rfl := List.mem_singleton.1 hmem'
    exact h.fresh parent name shared (heq ▸ hmem)
  case rooted =>
    rw [huri]
    exact h.rooted.concat (h.reached hparent)
  case entities =>
    intro node hnode
    rcases hentities node hnode with hold | hnew
    · exact hmore _ (h.entities node hold)
    · rw [hnew]
      exact hlast
  case shared =>
    intro key uri hget
    rcases hshared key uri hget with hold | hnew
    · exact hmore _ (h.shared key uri hold)
    · rw [hnew]
      exact hlast
  case keys =>
    rw [hkeys, List.filter_append, List.map_append, h.keys]
    cases shared <;> rfl
  case linked =>
    intro x hx
    rcases List.mem_append.1 hx with hx | hx
    · obtain ⟨st', hst', hlinks⟩ := h.linked x hx
      exact ⟨st', OrderedSet.mem_insert.2 (.inl hst'), hlinks⟩
    · obtain rfl := List.mem_singleton.1 hx
      exact ⟨st, OrderedSet.mem_insert.2 (.inr rfl), link⟩
  case resources =>
    intro st' hst' uri hobject
    rcases OrderedSet.mem_insert.1 hst' with hst' | rfl
    · rcases h.resources st' hst' uri hobject with hclass | ⟨x, hx, hlinks⟩
      · exact .inl hclass
      · exact .inr ⟨x, List.mem_append_left _ hx, hlinks⟩
    · exact .inr ⟨_, List.mem_append_right _ (List.mem_singleton_self _), link⟩

/-- Classes and values do not count as nodes. -/
theorem Grown.insert (h : Grown d classes made r ss) {st : Statement}
    (hst : ∀ uri, st.object = .resource uri → uri ∈ classes) :
    Grown d classes made r (ss.insert st) where
  counted := h.counted
  distinct := h.distinct
  rooted := h.rooted
  entities := h.entities
  shared := h.shared
  keys := h.keys
  single := h.single
  linked := by
    intro x hx
    obtain ⟨st', hst', hlinks⟩ := h.linked x hx
    exact ⟨st', OrderedSet.mem_insert.2 (.inl hst'), hlinks⟩
  resources := by
    intro st' hst' uri hobject
    -- what the statement links to is no node that has been made
    rcases OrderedSet.mem_insert.1 hst' with hst' | rfl
    · exact h.resources st' hst' uri hobject
    · exact .inl (hst uri hobject)

/-- Whatever happens to a record, its nodes stay numbered and linked. -/
theorem Grown.move {l : List Made} (h : Grown d classes made r (m.statementsOf r.uri))
    (hmove : Move d names classes r m l r' m') :
    Grown d classes (made ++ l) r' (m'.statementsOf r'.uri) := by
  cases hmove with
  -- the new node becomes the current one
  | @enter name st _ link =>
      have hss : (m.addStatement r.uri st).statementsOf (r.enter d name).uri =
          (m.statementsOf r.uri).insert st := Model.statementsOf_addStatement_self m r.uri st
      rw [hss]
      have hcurrent : Reached d names r r.current := .current
      refine h.make hcurrent link rfl rfl ?_ (fun _ _ hget => .inl hget) (List.append_nil _).symm
        h.single
      intro node hnode
      rcases List.mem_cons.1 hnode with rfl | hnode
      · exact .inr rfl
      · exact .inl hnode
  | @share parent name st hparent _ hnew link =>
      have hss : (m.addStatement r.uri st).statementsOf (r.share parent name).uri =
          (m.statementsOf r.uri).insert st := Model.statementsOf_addStatement_self m r.uri st
      rw [hss]
      refine h.make hparent link rfl rfl (fun _ hnode => .inl hnode) ?_ ?_
        (Assoc.nodup_keys_put h.single)
      · -- only the key of the new node is added
        intro key uri hget
        rw [Record.share, Assoc.get?_put] at hget
        split at hget
        · exact .inr (Option.some.inj hget).symm
        · exact .inl hget
      · exact (Assoc.keys_put _ _ _).trans (if_neg (Assoc.get?_eq_none_iff.1 hnew))
  | @classify c st hclass _ _ hobject =>
      rw [List.append_nil, Model.statementsOf_nameClass, Model.statementsOf_addPath,
        Model.statementsOf_addStatement_self]
      refine h.insert fun uri huri => ?_
      rw [hobject] at huri
      exact Node.resource.inj huri ▸ hclass
  -- a value links to nothing
  | @value node st v _ _ hobject =>
      rw [List.append_nil, Model.statementsOf_addPath, Model.statementsOf_addStatement_self]
      refine h.insert fun uri huri => ?_
      rw [hobject] at huri
      cases huri
  | @leave inner outer hentities =>
      rw [List.append_nil]
      refine { h with entities := fun node hnode => ?_ }
      exact h.entities node (hentities ▸ List.mem_cons_of_mem _ hnode)

/-- Whatever happens to a record one after the other, its nodes stay numbered and linked. -/
theorem Grown.trail {l : List Made} (h : Grown d classes made r (m.statementsOf r.uri))
    (htrail : Trail d names classes r m l r' m') :
    Grown d classes (made ++ l) r' (m'.statementsOf r'.uri) := by
  -- by induction on the moves, each of which may add nodes
  induction htrail generalizing made with
  | stay => rwa [List.append_nil]
  | move first _ ih =>
      rw [← List.append_assoc]
      exact ih (h.move first)

end Grown

/-! ## The nodes of a record -/

def started? : Event → Option String
  | .startEntity name => some name
  | .startRecord _ | .endRecord | .literal _ _ | .endEntity => none

theorem shared_of_mem_shareMade {name : String} {y : Scope × State} {x : Made}
    (h : x ∈ shareMade name y) : x.shared = true := by
  unfold shareMade at h
  split at h
  · cases h
  split at h
  · cases h
  · obtain rfl := List.mem_singleton.1 h
    rfl

/-- An event makes a node that is not shared if it starts an entity, and then one. -/
theorem opened_step {d : DataModel} {e : Event} {s : State} (h : (step d e s).refusal = none) :
    ((stepMade d e s).filter fun x => !x.shared).map Made.name = (started? e).toList := by
  cases e with
  | startEntity name =>
      cases hr : s.record with
      | none => simp [step, startEntity, hr, Outcome.refuse] at h
      | some r => simp [stepMade, hr, madeIn, started?]
  | literal name value =>
      -- the nodes that a literal makes are shared
      have hshared : ∀ x ∈ stepMade d (.literal name value) s, x.shared = true := by
        intro x hx
        cases hr : s.record with
        | none => simp [stepMade, hr] at hx
        | some r =>
            simp only [stepMade, hr] at hx
            obtain ⟨n, _, y, hmade⟩ := Outcome.mem_trace hx
            exact shared_of_mem_shareMade hmade
      simpa [started?] using hshared
  | startRecord _ => rfl
  | endRecord => rfl
  | endEntity => rfl

/-- There is one node of its own for each entity that starts. -/
theorem opened_made {d : DataModel} {es : List Event} {s : State}
    (h : (Outcome.each (step d) es s).refusal = none) :
    ((made d es s).filter fun x => !x.shared).map Made.name = es.filterMap started? := by
  induction es generalizing s with
  | nil => rfl
  | cons e rest ih =>
      obtain ⟨hfirst, hrest⟩ := Outcome.refusal_each_cons.1 h
      have htail := ih hrest
      rw [made] at htail
      rw [made, Outcome.trace_cons hfirst, List.filter_append, List.map_append, opened_step hfirst,
        htail]
      cases hname : started? e with
      | none => simp [hname]
      | some name => simp [hname]

/-- The nodes that events make in a record have URIs of their own; there is one for every entity
that starts, and one for every key that the names of literals lead through. -/
structure Nodes (d : DataModel) (record : String) (es : List Event) (s : State) : Prop where
  distinct : (record :: (made d es s).map Made.uri).Nodup
  opened : ((made d es s).filter fun x => !x.shared).map Made.name = es.filterMap started?
  single : (((made d es s).filter Made.shared).map Made.key).Nodup
  shared : ∀ key, key ∈ ((made d es s).filter Made.shared).map Made.key ↔ key ∈ sharedKeys d es s

/-- Nodes that form a tree in the statements of a record, with others still to be made. -/
structure Tree (d : DataModel) (record : String) (nodes later : List Made)
    (ss : OrderedSet Statement) : Prop where
  rooted : Rooted record nodes
  /-- A node is the object of its link and of no other statement. -/
  linked : ∀ x ∈ nodes, ∃ st ∈ ss.toList, x.Links d st ∧
    ∀ st' ∈ ss.toList, st'.object = .resource x.uri → st' = st
  /-- A node that has not been made is no object yet. -/
  unlinked : ∀ x ∈ later, ∀ st ∈ ss.toList, st.object ≠ .resource x.uri

section Tree

variable {d : DataModel} {classes : List String} {id : String} {es : List Event} {s : State}

/-- No node has the URI of the record or of another node. -/
theorem Grown.distinct_uris {made : List Made} {r : Record} {ss : OrderedSet Statement}
    (h : Grown d classes made r ss) : (r.uri :: made.map Made.uri).Nodup := by
  refine List.nodup_cons.2 ⟨fun hmem => ?_, h.distinct⟩
  obtain ⟨x, hx, hsame⟩ := List.mem_map.1 hmem
  obtain ⟨n, -, hxuri⟩ := h.counted x hx
  rw [hxuri] at hsame
  exact nodeUri_ne _ _ _ hsame

/-- The nodes made so far form a tree if no node, now or later, is named as a class. -/
theorem Grown.tree {made later : List Made} {r : Record} {ss : OrderedSet Statement}
    (h : Grown d classes made r ss) (hdistinct : ((made ++ later).map Made.uri).Nodup)
    (hapart : ∀ c ∈ classes, c ∉ (made ++ later).map Made.uri) : Tree d r.uri made later ss := by
  have hnode : ∀ x ∈ made ++ later, ∀ st ∈ ss.toList, st.object = .resource x.uri →
      x ∈ made ∧ x.Links d st := by
    intro x hx st hst hobject
    rcases h.resources st hst x.uri hobject with hclass | ⟨y, hy, hlinks⟩
    · exact absurd (List.mem_map_of_mem hx) (hapart _ hclass)
    · -- the node that is linked has the same URI, so it is the same
      have hsame : y.uri = x.uri := Node.resource.inj (hlinks.object.symm.trans hobject)
      obtain rfl := List.inj_on_of_nodup_map hdistinct (List.mem_append_left _ hy) hx hsame
      exact ⟨hy, hlinks⟩
  refine ⟨h.rooted, ?_, ?_⟩
  · intro x hx
    obtain ⟨st, hst, hlinks⟩ := h.linked x hx
    refine ⟨st, hst, hlinks, ?_⟩
    intro st' hst' hobject
    obtain ⟨-, hlinks'⟩ := hnode x (List.mem_append_left _ hx) st' hst' hobject
    exact hlinks'.unique hlinks
  · -- what is made later has a URI of its own, so it is not linked yet
    intro x hx st hst hobject
    obtain ⟨hmade, -⟩ := hnode x (List.mem_append_right _ hx) st hst hobject
    rw [List.map_append] at hdistinct
    obtain ⟨-, -, hne⟩ := List.nodup_append.1 hdistinct
    exact hne _ (List.mem_map_of_mem hmade) _ (List.mem_map_of_mem hx) rfl

/-- A record that starts has no nodes yet. -/
theorem startRecord_grown (hnew : s.model.statementsOf (Name.mint d.recordBase id) = .empty)
    (hclasses : d.recordClass.toList ⊆ classes) (h : (startRecord d id s).refusal = none) :
    Grown d classes [] (.start (Name.mint d.recordBase id))
      ((startRecord d id s).state.model.statementsOf (Name.mint d.recordBase id)) := by
  obtain ⟨-, -, hstart⟩ := startRecord_trail [] hclasses h
  have hbegun : Grown d classes [] (.start (Name.mint d.recordBase id))
      ((s.model.addRecord (Name.mint d.recordBase id)).statementsOf
        (Record.start (Name.mint d.recordBase id)).uri) := by
    have hsame := Model.statementsOf_addRecord s.model (Name.mint d.recordBase id)
      (Name.mint d.recordBase id)
    exact (hsame.trans hnew).symm ▸ grown_start _
  exact hbegun.trail hstart

/-- After the start of a record and further events the nodes made so far are as they should be. -/
theorem grown_each (hnew : s.model.statementsFor? (Name.mint d.recordBase id) = none)
    (hopen : .endRecord ∉ es)
    (hclasses : ∀ e ∈ Event.startRecord id :: es, classesAt d e ⊆ classes)
    (h : (Outcome.each (step d) (.startRecord id :: es) s).refusal = none) :
    ∃ r, r.uri = Name.mint d.recordBase id ∧
      (∀ key, key ∈ Assoc.keys r.shared ↔ key ∈ sharedKeys d (.startRecord id :: es) s) ∧
      Grown d classes (made d (.startRecord id :: es) s) r
        ((Outcome.each (step d) (.startRecord id :: es) s).state.model.statementsOf r.uri) := by
  obtain ⟨hfirst, hrest⟩ := Outcome.refusal_each_cons.1 h
  obtain ⟨hclass, hlater⟩ := List.forall_mem_cons.1 hclasses
  obtain ⟨hnone, hstarted, -⟩ := startRecord_trail (es.flatMap entityNames) hclass hfirst
  obtain ⟨r, hr, hadvance⟩ := each_trail hstarted hopen
    (fun e he _ hn => List.mem_flatMap.2 ⟨e, he, hn⟩) hlater hrest
  have hempty : s.model.statementsOf (Name.mint d.recordBase id) = .empty := by
    rw [Model.statementsOf_eq, hnew]
    rfl
  have hgrown := (startRecord_grown hempty hclass hfirst).trail hadvance.trail
  -- nothing is made at the start of the record
  have hmade : stepMade d (.startRecord id) s = [] := rfl
  have hkeys : stepKeys (.startRecord id) s = [] := rfl
  rw [made, sharedKeys, Outcome.trace_cons hfirst, Outcome.trace_cons hfirst,
    Outcome.state_each_cons hfirst, hmade, hkeys]
  refine ⟨r, hadvance.trail.uri, ?_, hgrown⟩
  intro key
  have hstartless : Assoc.keys (Record.start (Name.mint d.recordBase id)).shared = [] := rfl
  rw [hadvance.shared, hstartless, or_iff_right List.not_mem_nil]
  rfl

/-- The nodes of a record whose URI is new form a tree, from the first event to the last: whatever
the names of the entities are, the nodes have URIs of their own, and unless one of them is named as
a class, each is linked when it is made, from the record or a node made before it, and never again. -/
theorem record_tree (hnew : s.model.statementsFor? (Name.mint d.recordBase id) = none)
    (hopen : .endRecord ∉ es)
    (h : (Outcome.each (step d) (.startRecord id :: es) s).refusal = none) :
    Nodes d (Name.mint d.recordBase id) (.startRecord id :: es) s ∧
      ((∀ c ∈ (Event.startRecord id :: es).flatMap (classesAt d),
          c ∉ (made d (.startRecord id :: es) s).map Made.uri) →
        ∀ first rest, es = first ++ rest →
          Tree d (Name.mint d.recordBase id) (made d (.startRecord id :: first) s)
            (made d rest (Outcome.each (step d) (.startRecord id :: first) s).state)
            ((Outcome.each (step d) (.startRecord id :: first) s).state.model.statementsOf
              (Name.mint d.recordBase id))) := by
  have hclasses : ∀ e ∈ Event.startRecord id :: es,
      classesAt d e ⊆ (Event.startRecord id :: es).flatMap (classesAt d) :=
    fun e he _ hc => List.mem_flatMap.2 ⟨e, he, hc⟩
  obtain ⟨r, huri, hkeys, hall⟩ := grown_each hnew hopen hclasses h
  refine ⟨⟨huri ▸ hall.distinct_uris, opened_made h, ?single, ?shared⟩, ?tree⟩
  case single =>
    rw [hall.keys]
    exact hall.single
  case shared =>
    rw [hall.keys]
    exact hkeys
  case tree =>
    intro hapart first rest hes
    subst hes
    have hsplit : Event.startRecord id :: (first ++ rest) = (.startRecord id :: first) ++ rest := rfl
    rw [hsplit] at h hall hapart
    have hfirst := (Outcome.refusal_each_append.1 h).1
    -- the nodes of the whole record are those made so far and those made later
    have hmade : made d ((.startRecord id :: first) ++ rest) s =
        made d (.startRecord id :: first) s ++
          made d rest (Outcome.each (step d) (.startRecord id :: first) s).state := by
      rw [made, Outcome.trace_append, hfirst]
      rfl
    rw [hmade] at hall hapart
    obtain ⟨r', huri', -, hgrown⟩ := grown_each hnew
      (fun he => hopen (List.mem_append_left _ he))
      (fun e he => hclasses e (List.mem_append_left rest he)) hfirst
    have htree := hgrown.tree hall.distinct hapart
    rwa [huri'] at htree

end Tree

/-- Entities whose keys meet: some with slashes, digits or nothing in their names, and some that
literals lead through. -/
def crossing : List Event :=
  [.literal "a.1.b" "x", .startEntity "a", .startEntity "1", .literal "b.c" "y", .endEntity,
    .endEntity, .startEntity "a/1", .literal "rdf:type" "http://example.org/C", .endEntity,
    .startEntity "", .startEntity "a", .endEntity, .endEntity, .literal "a.1.d" "z"]

/-- Entities with slashes, digits or nothing in their names, some of them shared: their nodes are
distinct and form a tree at every place. -/
theorem record_tree_crossing :
    Nodes .standard (Name.mint DataModel.standard.recordBase "r") (.startRecord "r" :: crossing)
        initial ∧
      ∀ first rest, crossing = first ++ rest →
        Tree .standard (Name.mint DataModel.standard.recordBase "r")
          (made .standard (.startRecord "r" :: first) initial)
          (made .standard rest
            (Outcome.each (step .standard) (.startRecord "r" :: first) initial).state)
          ((Outcome.each (step .standard) (.startRecord "r" :: first) initial).state.model.statementsOf
            (Name.mint DataModel.standard.recordBase "r")) := by
  have haccepted : (Outcome.each (step .standard) (.startRecord "r" :: crossing) initial).refusal =
      none := by decide +kernel
  have hapart : ∀ c ∈ (Event.startRecord "r" :: crossing).flatMap (classesAt .standard),
      c ∉ (made .standard (.startRecord "r" :: crossing) initial).map Made.uri := by decide +kernel
  have htree := record_tree (d := .standard) (s := initial) rfl (by decide) haccepted
  exact ⟨htree.1, htree.2 hapart⟩

end Encoder
end Recast
