import Recast.Proofs.Graph.Walk

/-!
# Attached — values and the nodes they came in

A literal with dots in its name walks from the current node through shared entities.  An entity that
is made on the walk is linked from the node before it; one that is found has been linked before,
from the node where the walk came from that made it.  So the value hangs on the current node if the
shared entities found on the way have been made on walks that came the same way:
`Encoder.value_attached`.  Otherwise it does not: `Encoder.value_detached`.
-/

namespace Recast
namespace Encoder

/-! ## Links -/

def States (ss : OrderedSet Statement) (subject predicate : String) (object : Node) : Prop :=
  ∃ st ∈ ss.toList, st.subject = subject ∧ st.predicate = predicate ∧ st.object = object

/-- Names lead along links from a node to another one. -/
def LinkedBy (d : DataModel) (ss : OrderedSet Statement) : String → List String → String → Prop
  | node, [], last => node = last
  | node, name :: rest, last => ∃ next, States ss node (predicate d name) (.resource next) ∧
      LinkedBy d ss next rest last

/-- Of the entities that names lead through, those that are shared already hang on each other under
these names, the first one on the node. -/
def Continues (d : DataModel) (made : List Made) : String → String → List String → Prop
  | _, _, [] => True
  | node, key, name :: rest =>
      match made.find? fun x => x.shared && x.key == childKey key name with
      | some x => x.parent = node ∧ predicate d x.name = predicate d name ∧
          Continues d made x.uri (childKey key name) rest
      | none => ∀ k ∈ keysFrom (childKey key name) rest, ∀ x ∈ made, x.shared → x.key ≠ k

instance decidableContinues (d : DataModel) (made : List Made) :
    ∀ node key names, Decidable (Continues d made node key names)
  | _, _, [] => .isTrue trivial
  | node, key, name :: rest =>
      match h : made.find? fun x => x.shared && x.key == childKey key name with
      | some x =>
          have := decidableContinues d made x.uri (childKey key name) rest
          decidable_of_iff (x.parent = node ∧ predicate d x.name = predicate d name ∧
            Continues d made x.uri (childKey key name) rest) (by simp only [Continues, h])
      | none =>
          decidable_of_iff (∀ k ∈ keysFrom (childKey key name) rest, ∀ x ∈ made, x.shared →
            x.key ≠ k) (by simp only [Continues, h])

section Links

variable {d : DataModel} {ss ss' : OrderedSet Statement}

theorem States.mono {subject predicate : String} {object : Node} (hss : ss.toList ⊆ ss'.toList)
    (h : States ss subject predicate object) : States ss' subject predicate object := by
  obtain ⟨st, hst, hparts⟩ := h
  exact ⟨st, hss hst, hparts⟩

theorem LinkedBy.mono (hss : ss.toList ⊆ ss'.toList) {names : List String} {node last : String}
    (h : LinkedBy d ss node names last) : LinkedBy d ss' node names last := by
  induction names generalizing node with
  | nil => exact h
  | cons name rest ih =>
      obtain ⟨next, hlink, hrest⟩ := h
      exact ⟨next, hlink.mono hss, ih hrest⟩

theorem Made.Links.states {x : Made} {st : Statement} (h : x.Links d st) (hst : st ∈ ss.toList) :
    States ss x.parent (Encoder.predicate d x.name) (.resource x.uri) :=
  ⟨st, hst, h.subject, h.predicate, h.object⟩

end Links

/-! ## What is shared -/

/-- The nodes made so far in a record are linked, and those for literals are shared. -/
structure Traced (d : DataModel) (made : List Made) (r : Record) (ss : OrderedSet Statement) :
    Prop where
  held : ∀ x ∈ made, x.shared = true → Assoc.get? x.key r.shared = some x.uri
  origin : ∀ key uri, Assoc.get? key r.shared = some uri →
    ∃ x ∈ made, x.shared = true ∧ x.key = key ∧ x.uri = uri
  linked : ∀ x ∈ made, States ss x.parent (predicate d x.name) (.resource x.uri)

section Shared

variable {d : DataModel} {made l : List Made} {r r' : Record} {m m' : Model}
  {ss ss' : OrderedSet Statement}

theorem traced_start (d : DataModel) (uri : String) (ss : OrderedSet Statement) :
    Traced d [] (.start uri) ss where
  held := by simp
  origin := by
    intro key uri' hget
    cases hget
  linked := by simp

theorem Traced.mono (h : Traced d made r ss) (hss : ss.toList ⊆ ss'.toList) :
    Traced d made r ss' :=
  ⟨h.held, h.origin, fun x hx => (h.linked x hx).mono hss⟩

/-- A node of one entity of the stream is linked and not shared. -/
theorem Traced.enter (h : Traced d made r ss) {name : String} {st : Statement}
    (link : (madeIn r r.current name false).Links d st) :
    Traced d (made ++ [madeIn r r.current name false]) (r.enter d name) (ss.insert st) where
  held := by
    intro x hx hshared
    rcases List.mem_append.1 hx with hx | hx
    · exact h.held x hx hshared
    · -- the new node is not shared
      obtain rfl := List.mem_singleton.1 hx
      cases hshared
  origin := by
    intro key uri hget
    obtain ⟨x, hx, hparts⟩ := h.origin key uri hget
    exact ⟨x, List.mem_append_left _ hx, hparts⟩
  linked := by
    intro x hx
    rcases List.mem_append.1 hx with hx | hx
    · exact (h.linked x hx).mono (ss.subset_insert st)
    · obtain rfl := List.mem_singleton.1 hx
      exact link.states (OrderedSet.mem_insert.2 (.inr rfl))

/-- A node that literals share is linked, and shared from then on. -/
theorem Traced.share (h : Traced d made r ss) {node : Scope} {name : String} {st : Statement}
    (hnew : Assoc.get? (childKey node.key name) r.shared = none)
    (link : (madeIn r node name true).Links d st) :
    Traced d (made ++ [madeIn r node name true]) (r.share node name) (ss.insert st) where
  held := by
    intro x hx hshared
    rw [Record.share, Assoc.get?_put]
    rcases List.mem_append.1 hx with hx | hx
    · -- its key was shared before, so it is another one
      have hold := h.held x hx hshared
      have hne : childKey node.key name ≠ x.key := by
        intro heq
        rw [← heq, hnew] at hold
        cases hold
      rw [if_neg hne, hold]
    · obtain rfl := List.mem_singleton.1 hx
      exact if_pos rfl
  origin := by
    intro key uri hget
    rw [Record.share, Assoc.get?_put] at hget
    split at hget
    · rename_i hkey
      exact ⟨_, List.mem_append_right _ (List.mem_singleton_self _), rfl, hkey,
        Option.some.inj hget⟩
    · obtain ⟨x, hx, hparts⟩ := h.origin key uri hget
      exact ⟨x, List.mem_append_left _ hx, hparts⟩
  linked := by
    intro x hx
    rcases List.mem_append.1 hx with hx | hx
    · exact (h.linked x hx).mono (ss.subset_insert st)
    · obtain rfl := List.mem_singleton.1 hx
      exact link.states (OrderedSet.mem_insert.2 (.inr rfl))

/-- Walking through entities keeps all nodes linked, the new ones included. -/
theorem Traced.walk {node last : Scope} {names : List String}
    (h : Traced d made r (m.statementsOf r.uri)) (walk : Walk d r m node names l r' m' last) :
    Traced d (made ++ l) r' (m'.statementsOf r.uri) := by
  induction walk generalizing made with
  | stay => rwa [List.append_nil]
  | find _ _ ih => exact ih h
  | @make r r' m m' node last name rest l st hnew link _ ih =>
      have hmade := h.share hnew link
      rw [← Model.statementsOf_addStatement_self] at hmade
      rw [List.append_cons]
      exact ih hmade

/-- An event keeps all nodes linked, those that it makes included. -/
theorem Traced.effect {e : Event} (h : Traced d made r (m.statementsOf r.uri))
    (heffect : Effect d e r m l r' m') : Traced d (made ++ l) r' (m'.statementsOf r'.uri) := by
  rw [heffect.uri]
  -- nodes are added only where something is entered or a value is reached
  cases heffect with
  | enter link =>
      rw [Model.statementsOf_addStatement_self]
      exact h.enter link
  | leave _ =>
      rw [List.append_nil]
      exact ⟨h.held, h.origin, h.linked⟩
  | silent => rwa [List.append_nil]
  | classify _ _ _ _ _ =>
      rw [List.append_nil, Model.statementsOf_nameClass, Model.statementsOf_addPath]
      exact h.mono (Model.subset_addStatement _ _ _ _)
  | value _ _ _ walk _ _ _ =>
      rw [Model.statementsOf_addPath]
      exact (h.walk walk).mono (Model.subset_addStatement _ _ _ _)

/-- Events one after the other keep all nodes linked. -/
theorem Traced.course {es : List Event} (h : Traced d made r (m.statementsOf r.uri))
    (hcourse : Course d es r m l r' m') : Traced d (made ++ l) r' (m'.statementsOf r'.uri) := by
  induction hcourse generalizing made with
  | stay => rwa [List.append_nil]
  | step first _ ih =>
      rw [← List.append_assoc]
      exact ih (h.effect first)

/-! ## Where walks lead -/

theorem length_childKey {key name : String} (hname : name ≠ "") :
    key.length < (childKey key name).length := by
  have hlength : 0 < name.length := by
    rw [Nat.pos_iff_ne_zero, ← String.length_toList]
    simpa using hname
  unfold childKey
  split
  · rename_i hkey
    simpa [hkey] using hlength
  · rw [String.length_append, String.length_append]
    omega

/-- Names lead to longer and longer keys. -/
theorem length_lt_of_mem_keysFrom {names : List String} {key k : String}
    (hnames : ∀ n ∈ names, n ≠ "") (hk : k ∈ keysFrom key names) : key.length < k.length := by
  induction names generalizing key with
  | nil => cases hk
  | cons name rest ih =>
      obtain ⟨hname, hrest⟩ := List.forall_mem_cons.1 hnames
      have hlonger : key.length < (childKey key name).length := length_childKey hname
      rcases List.mem_cons.1 hk with rfl | hk
      · exact hlonger
      · exact Nat.lt_trans hlonger (ih hrest hk)

/-- A walk through entities none of which is shared already makes them all, and links them. -/
theorem Walk.linkedBy_of_new {node last : Scope} {names : List String}
    (walk : Walk d r m node names l r' m' last) (hnames : ∀ n ∈ names, n ≠ "")
    (hnew : ∀ k ∈ keysFrom node.key names, Assoc.get? k r.shared = none) :
    LinkedBy d (m'.statementsOf r.uri) node.uri names last.uri := by
  induction walk with
  | stay => rfl
  | find huri _ _ =>
      rw [hnew _ List.mem_cons_self] at huri
      cases huri
  | @make r r' m m' node last name rest l st _ link onward ih =>
      obtain ⟨-, hrest⟩ := List.forall_mem_cons.1 hnames
      refine ⟨_, (link.states ?_).mono (onward.mono r.uri), ih hrest fun k hk => ?_⟩
      · rw [Model.statementsOf_addStatement_self]
        exact OrderedSet.mem_insert.2 (.inr rfl)
      · -- the keys further on are longer than the one that is taken now
        have hne : childKey node.key name ≠ k := by
          intro heq
          have hlonger := length_lt_of_mem_keysFrom hrest hk
          rw [← heq] at hlonger
          exact Nat.lt_irrefl _ hlonger
        exact (Assoc.get?_put _ _ _ _).trans
          ((if_neg hne).trans (hnew k (List.mem_cons_of_mem _ hk)))

/-- A walk that goes on as earlier ones have gone leads along links. -/
theorem Traced.linkedBy {node last : Scope} {names : List String}
    (h : Traced d made r (m.statementsOf r.uri)) (walk : Walk d r m node names l r' m' last)
    (hnames : ∀ n ∈ names, n ≠ "") (hcontinues : Continues d made node.uri node.key names) :
    LinkedBy d (m'.statementsOf r.uri) node.uri names last.uri := by
  induction walk with
  | stay => rfl
  | @find r r' m m' node last name uri rest l huri onward ih =>
      rw [Continues] at hcontinues
      cases hfind : made.find? fun x => x.shared && x.key == childKey node.key name with
      | none =>
          obtain ⟨x, hx, hshared, hkey, -⟩ := h.origin _ _ huri
          exact absurd (List.find?_eq_none.1 hfind x hx) (by simp [hshared, hkey])
      | some x =>
          simp only [hfind] at hcontinues
          obtain ⟨hparent, hpredicate, hcontinues⟩ := hcontinues
          have hx := List.mem_of_find?_eq_some hfind
          obtain ⟨hshared, hkey⟩ : x.shared = true ∧ x.key = childKey node.key name := by
            simpa using List.find?_some hfind
          -- what is found is what was made for the key
          have hheld := h.held x hx hshared
          rw [hkey, huri] at hheld
          obtain rfl := Option.some.inj hheld
          have hlink := (h.linked x hx).mono (onward.mono r.uri)
          rw [hparent, hpredicate] at hlink
          exact ⟨x.uri, hlink, ih h (List.forall_mem_cons.1 hnames).2 hcontinues⟩
  | @make r r' m m' node last name rest l st hnew link onward _ =>
      rw [Continues] at hcontinues
      cases hfind : made.find? fun x => x.shared && x.key == childKey node.key name with
      | some x =>
          have hx := List.mem_of_find?_eq_some hfind
          obtain ⟨hshared, hkey⟩ : x.shared = true ∧ x.key = childKey node.key name := by
            simpa using List.find?_some hfind
          have hheld := h.held x hx hshared
          rw [hkey, hnew] at hheld
          cases hheld
      | none =>
          simp only [hfind] at hcontinues
          refine (Walk.make hnew link onward).linkedBy_of_new hnames fun k hk => ?_
          rcases List.mem_cons.1 hk with rfl | hk
          · exact hnew
          · cases hget : Assoc.get? k r.shared with
            | none => rfl
            | some uri =>
                obtain ⟨x, hx, hshared, hkey, -⟩ := h.origin k uri hget
                exact absurd hkey (hcontinues k hk x hx hshared)

/-! ## Values -/

/-- A value hangs on the last of the entities that its name leads through, which are linked by their
names from the current node on. -/
theorem Traced.value {name v attribute_ : String} {names : List String}
    (h : Traced d made r (m.statementsOf r.uri)) (heffect : Effect d (.literal name v) r m l r' m')
    (hv : v ≠ "") (hlocal : Name.isAbsolute name = false) (htype : Name.isType name = false)
    (hsegments : segments name = names ++ [attribute_])
    (hcontinues : Continues d made r.current.uri r.current.key names) :
    ∃ last, LinkedBy d (m'.statementsOf r.uri) r.current.uri names last ∧
      States (m'.statementsOf r.uri) last (predicate d attribute_) (.literal v) := by
  have hroute : route name = names ++ [attribute_] := by
    rw [route, hlocal, ← hsegments]
    rfl
  cases heffect with
  | silent => exact absurd rfl hv
  | classify _ hclass _ _ _ =>
      -- the value hangs on the node at the end of the walk
      rw [htype] at hclass
      cases hclass
  | @value _ _ _ m' _ _ attribute' _ last st _ _ hattribute walk hsubject hpredicate hobject =>
      rw [hroute, List.getLast?_concat] at hattribute
      obtain rfl := Option.some.inj hattribute
      rw [hroute, List.dropLast_concat] at walk
      have hnames : ∀ n ∈ names, n ≠ "" := by
        intro n hn
        have hmem : n ∈ segments name := hsegments ▸ List.mem_append_left _ hn
        simpa using (List.mem_filter.1 hmem).2
      have hlinked := h.linkedBy walk hnames hcontinues
      rw [Model.statementsOf_addPath]
      refine ⟨last.uri, hlinked.mono (Model.subset_addStatement _ _ _ _), st, ?_, hsubject,
        hpredicate, hobject⟩
      rw [Model.statementsOf_addStatement_self]
      exact OrderedSet.mem_insert.2 (.inr rfl)

end Shared

section Runs

variable {d : DataModel} {before inside after : List Event} {id name v attribute_ : String}
  {names : List String} {r : Record}

/-- The record after its start and some further events, and what has been made in it. -/
theorem traced_run (hinside : .endRecord ∉ inside)
    (haccepted : (run d (before ++ .startRecord id :: inside)).refusal = none)
    (hr : (run d (before ++ .startRecord id :: inside)).state.record = some r) :
    Traced d (made d (.startRecord id :: inside) (run d before).state) r
      ((run d (before ++ .startRecord id :: inside)).state.model.statementsOf r.uri) := by
  obtain ⟨hbefore, hrecord⟩ := Outcome.refusal_each_append.1 haccepted
  obtain ⟨hstart, hrest⟩ : (step d (.startRecord id) (run d before).state).refusal = none ∧ _ :=
    Outcome.refusal_each_cons.1 hrecord
  have hstate : (run d (before ++ .startRecord id :: inside)).state =
      (Outcome.each (step d) inside (step d (.startRecord id) (run d before).state).state).state :=
    (Outcome.state_each_append hbefore).trans (Outcome.state_each_cons hstart)
  -- nothing is made at the start of the record
  have hmade : made d (.startRecord id :: inside) (run d before).state =
      made d inside (step d (.startRecord id) (run d before).state).state :=
    Outcome.trace_cons hstart
  obtain ⟨-, hstarted, -⟩ := startRecord_ok hstart
  obtain ⟨r', hr', hcourse⟩ := each_course hstarted hinside hrest
  rw [hstate] at hr ⊢
  obtain rfl := Option.some.inj (hr'.symm.trans hr)
  rw [hmade]
  exact (traced_start d (Name.mint d.recordBase id) _).course hcourse

/-- A value stays attached to the node it came in, whether this is the record or any instance of an
entity, if the shared entities that its name leads through have been made on the same way: then links
lead along the name from the node to the statement of the value, and they stay there. -/
theorem value_attached (hinside : .endRecord ∉ inside)
    (haccepted : (run d (before ++ .startRecord id :: (inside ++ .literal name v :: after))).refusal =
      none)
    (hr : (run d (before ++ .startRecord id :: inside)).state.record = some r)
    (hv : v ≠ "") (hlocal : Name.isAbsolute name = false) (htype : Name.isType name = false)
    (hsegments : segments name = names ++ [attribute_])
    (hcontinues : Continues d (made d (.startRecord id :: inside) (run d before).state)
      r.current.uri r.current.key names) :
    ∃ last,
      LinkedBy d ((run d (before ++ .startRecord id ::
        (inside ++ .literal name v :: after))).state.model.statementsOf r.uri) r.current.uri names
        last ∧
      States ((run d (before ++ .startRecord id ::
        (inside ++ .literal name v :: after))).state.model.statementsOf r.uri) last
        (predicate d attribute_) (.literal v) := by
  have hsplit : before ++ .startRecord id :: (inside ++ .literal name v :: after) =
      (before ++ .startRecord id :: inside) ++ (.literal name v :: after) := by simp
  rw [hsplit] at haccepted ⊢
  obtain ⟨hfront, hback⟩ := Outcome.refusal_each_append.1 haccepted
  obtain ⟨hliteral, hafter⟩ := Outcome.refusal_each_cons.1 hback
  obtain ⟨r', -, heffect⟩ := step_effect hr (by simp) hliteral
  obtain ⟨last, hlinked, hstated⟩ := (traced_run hinside hfront hr).value heffect hv hlocal htype
    hsegments hcontinues
  have hstays := each_mono hafter r.uri
  rw [run, Outcome.state_each_append hfront, Outcome.state_each_cons hliteral]
  exact ⟨last, hlinked.mono hstays, hstated.mono hstays⟩

end Runs

/-- An entity that occurs twice, with literals that lead through other entities each time. -/
def recurring : List Event :=
  [.startEntity "e", .literal "a.b" "x", .endEntity, .startEntity "e", .literal "c.d.a" "y"]

/-- The record in which the entity is open for the second time. -/
def reopened : Record :=
  ⟨"http://data.dswarm.org/records/r",
    [⟨"http://data.dswarm.org/records/r/e/2", ⟨["http://data.dswarm.org/schema#e"]⟩, "e"⟩],
    [("e", 2), ("e/a", 1), ("e/c", 1), ("e/c/d", 1)],
    [("e/a", "http://data.dswarm.org/records/r/e/a/1"),
      ("e/c", "http://data.dswarm.org/records/r/e/c/1"),
      ("e/c/d", "http://data.dswarm.org/records/r/e/c/d/1")]⟩

/-- In the second of two entities of one name, a literal leads on through an entity that it shares
with none of the first one. -/
theorem value_attached_recurring :
    ∃ last,
      LinkedBy .standard ((run .standard (.startRecord "r" :: (recurring ++ .literal "c.d.b" "z" ::
        [.endEntity, .endRecord]))).state.model.statementsOf reopened.uri)
        "http://data.dswarm.org/records/r/e/2" ["c", "d"] last ∧
      States ((run .standard (.startRecord "r" :: (recurring ++ .literal "c.d.b" "z" ::
        [.endEntity, .endRecord]))).state.model.statementsOf reopened.uri)
        last (predicate .standard "b") (.literal "z") := by
  have haccepted : (run .standard ([] ++ .startRecord "r" :: (recurring ++ .literal "c.d.b" "z" ::
      [.endEntity, .endRecord]))).refusal = none := by decide +kernel
  have hr : (run .standard ([] ++ .startRecord "r" :: recurring)).state.record = some reopened := by
    decide +kernel
  -- the name leads through two shared nodes, of which the current entity has the first one already
  have hsegments : segments "c.d.b" = ["c", "d"] ++ ["b"] := by decide +kernel
  have hcontinues : Continues .standard
      (made .standard (.startRecord "r" :: recurring) (run .standard []).state)
      reopened.current.uri reopened.current.key ["c", "d"] := by decide +kernel
  have hcurrent : reopened.current.uri = "http://data.dswarm.org/records/r/e/2" := rfl
  have hopen : .endRecord ∉ recurring := by decide
  have hattached := @value_attached .standard [] recurring [.endEntity, .endRecord] "r" "c.d.b" "z"
    "b" ["c", "d"] reopened hopen haccepted hr (by decide) (by decide) (by decide) hsegments
    hcontinues
  rwa [hcurrent, List.nil_append] at hattached

def twice : List Event :=
  [.startEntity "e", .literal "a.b" "v", .endEntity, .startEntity "e"]

/-- The value of the second instance is stated about the node that hangs on the first one: no link
leads anywhere from the second. -/
theorem value_detached :
    (run .standard (.startRecord "r" :: (twice ++ .literal "a.b" "w" ::
        [.endEntity, .endRecord]))).refusal = none ∧
      (run .standard (.startRecord "r" :: twice)).state.record.map (fun r => r.current.uri) =
        some "http://data.dswarm.org/records/r/e/2" ∧
      ∀ last, ¬ LinkedBy .standard ((run .standard (.startRecord "r" :: (twice ++
        .literal "a.b" "w" :: [.endEntity, .endRecord]))).state.model.statementsOf
          "http://data.dswarm.org/records/r") "http://data.dswarm.org/records/r/e/2" ["a"] last := by
  refine ⟨by decide +kernel, by decide +kernel, ?_⟩
  rintro last ⟨next, ⟨st, hst, hsubject, -⟩, -⟩
  have hnone : ∀ st ∈ ((run .standard (.startRecord "r" :: (twice ++ .literal "a.b" "w" ::
      [.endEntity, .endRecord]))).state.model.statementsOf
        "http://data.dswarm.org/records/r").toList,
      st.subject ≠ "http://data.dswarm.org/records/r/e/2" := by decide +kernel
  exact hnone st hst hsubject

end Encoder
end Recast
