import Mathlib.Data.List.Basic
import Mathlib.Logic.Relation
import Recast.Graph.Schema
import Recast.Proofs.OrderedMap
import Recast.Proofs.OrderedSet

/-!
# SchemaWalk — the paths that are derived from statements

The walk through the statements of a record goes on from a statement to those about the entity that
it links to, and so whatever path it makes leads along links to a statement that is no link:
`Schema.exists_of_mem_paths`.  It enters each subject once, so it finds all of these if no subject is
linked twice, and the record never: `Schema.mem_paths_iff`.

* `Schema.Next`, `Schema.Reaches` — from statement to statement, and from the record to its nodes;
* `Schema.Forest` — no subject is linked twice;
* `Schema.Open` — what the walk keeps true of the statements that are pending.
-/

namespace Recast
namespace Schema

variable {ss : List Statement} {record node : String} {path path' : AttributePath}

/-! ## Links -/

theorem mem_about {st : Statement} : st ∈ about ss node ↔ st ∈ ss ∧ st.subject = node := by
  simp [about]

/-- A statement links to an entity if its object is one that statements are about. -/
theorem link?_eq_some {st : Statement} :
    link? ss st = some node ↔ st.object = .resource node ∧ ∃ t ∈ ss, t.subject = node := by
  unfold link?
  cases st.object with
  | literal v => simp
  | resource uri =>
      -- a resource is linked where something is stated about it
      by_cases habout : about ss uri = []
      · simp only [habout, List.isEmpty_nil, if_true, Node.resource.injEq, false_iff, reduceCtorEq]
        rintro ⟨rfl, t, ht, hsubject⟩
        have hmem : t ∈ about ss uri := mem_about.2 ⟨ht, hsubject⟩
        rw [habout] at hmem
        cases hmem
      · have hempty : (about ss uri).isEmpty = false := by simpa using habout
        simp only [hempty, Bool.false_eq_true, if_false, Option.some.injEq, Node.resource.injEq]
        constructor
        · rintro rfl
          obtain ⟨t, ht⟩ := List.exists_mem_of_ne_nil _ habout
          exact ⟨rfl, t, mem_about.1 ht⟩
        · exact fun h => h.1

theorem link?_eq_none {st : Statement} :
    link? ss st = none ↔ ∀ node, st.object = .resource node → ∀ t ∈ ss, t.subject ≠ node := by
  rw [Option.eq_none_iff_forall_ne_some]
  constructor
  · intro h node hobject t ht hsubject
    exact h node (link?_eq_some.2 ⟨hobject, t, ht, hsubject⟩)
  · intro h node hlink
    obtain ⟨hobject, t, ht, hsubject⟩ := link?_eq_some.1 hlink
    exact h node hobject t ht hsubject

def Next (ss : List Statement) (x y : AttributePath × Statement) : Prop :=
  link? ss x.2 = some y.2.subject ∧ y.2 ∈ ss ∧ y.1 = x.1.child x.2.predicate

/-- Statements lead from a record along a path to a node. -/
inductive Reaches (ss : List Statement) (record : String) : AttributePath → String → Prop
  | here : Reaches ss record .empty record
  | link {path : AttributePath} {st : Statement} {node : String}
      (hsubject : Reaches ss record path st.subject) (hst : st ∈ ss)
      (hobject : st.object = .resource node) : Reaches ss record (path.child st.predicate) node

theorem Reaches.mono {ss' : List Statement} (hss : ss ⊆ ss') (h : Reaches ss record path node) :
    Reaches ss' record path node := by
  induction h with
  | here => exact .here
  | link _ hst hobject ih => exact .link ih (hss hst) hobject

/-! ## What the walk finds -/

/-- Every path that the walk makes comes from a statement that is pending. -/
theorem exists_of_mem_walk {entered : List String} {work : List (AttributePath × Statement)}
    {p : AttributePath} (h : p ∈ walk ss entered work) :
    ∃ x ∈ work, ∃ y, Relation.ReflTransGen (Next ss) x y ∧ link? ss y.2 = none ∧
      p = y.1.child y.2.predicate := by
  fun_induction walk ss entered work with
  | case1 entered => cases h
  | case2 entered q s rest hlink ih =>
      rcases List.mem_cons.1 h with rfl | h
      · exact ⟨_, List.mem_cons_self, _, .refl, hlink, rfl⟩
      · obtain ⟨x, hx, hy⟩ := ih h
        exact ⟨x, List.mem_cons_of_mem _ hx, hy⟩
  | case3 entered q s rest uri hlink hentered ih =>
      obtain ⟨x, hx, hy⟩ := ih h
      exact ⟨x, List.mem_cons_of_mem _ hx, hy⟩
  | case4 entered q s rest uri hlink hentered ih =>
      obtain ⟨x, hx, y, hxy, hy⟩ := ih h
      rcases List.mem_append.1 hx with hx | hx
      · -- the statement is about the entity that has been entered here
        obtain ⟨t, ht, rfl⟩ := List.mem_map.1 hx
        obtain ⟨htss, hsubject⟩ := mem_about.1 ht
        have hnext : Next ss (q, s) (q.child s.predicate, t) := ⟨by rw [hsubject, hlink], htss, rfl⟩
        exact ⟨(q, s), List.mem_cons_self, y, .head hnext hxy, hy⟩
      · exact ⟨x, List.mem_cons_of_mem _ hx, y, hxy, hy⟩

/-- The walk comes to nothing but statements about nodes that can be reached. -/
theorem reaches_of_next {x y : AttributePath × Statement}
    (hx : x.2 ∈ ss ∧ Reaches ss record x.1 x.2.subject)
    (h : Relation.ReflTransGen (Next ss) x y) : y.2 ∈ ss ∧ Reaches ss record y.1 y.2.subject := by
  induction h with
  | refl => exact hx
  | tail _ hnext ih =>
      obtain ⟨hlink, hmem, hpath⟩ := hnext
      rw [hpath]
      exact ⟨hmem, .link ih.2 ih.1 (link?_eq_some.1 hlink).1⟩

/-- Every path of a record leads along links to a statement that is none. -/
theorem exists_of_mem_paths {p : AttributePath} (h : p ∈ paths record ss) :
    ∃ path, ∃ st ∈ ss, Reaches ss record path st.subject ∧ link? ss st = none ∧
      p = path.child st.predicate := by
  obtain ⟨x, hx, y, hxy, hlink, hp⟩ := exists_of_mem_walk h
  obtain ⟨st, hst, rfl⟩ := List.mem_map.1 hx
  obtain ⟨hmem, hsubject⟩ := mem_about.1 hst
  have hfirst : Reaches ss record .empty st.subject := hsubject ▸ .here
  obtain ⟨hy, hreaches⟩ := reaches_of_next ⟨hmem, hfirst⟩ hxy
  exact ⟨y.1, y.2, hy, hreaches, hlink, hp⟩

/-! ## What the walk does not miss -/

/-- The links of a record are those of a forest: no subject is linked twice, and the record never. -/
structure Forest (record : String) (ss : List Statement) : Prop where
  nodup : ss.Nodup
  single : ∀ st ∈ ss, ∀ st' ∈ ss, ∀ node, link? ss st = some node → link? ss st' = some node →
    st = st'
  root : ∀ st ∈ ss, link? ss st ≠ some record

/-- In a forest no path but one leads to a subject. -/
theorem Forest.unique (hforest : Forest record ss) (h : Reaches ss record path node)
    (h' : Reaches ss record path' node) (hnode : ∃ t ∈ ss, t.subject = node) : path = path' := by
  induction h generalizing path' with
  | here =>
      cases h' with
      | here => rfl
      | @link _ st _ _ hst hobject =>
          -- nothing links to the record
          exact absurd (link?_eq_some.2 ⟨hobject, hnode⟩) (hforest.root st hst)
  | @link path st node _ hst hobject ih =>
      have hlink := link?_eq_some.2 ⟨hobject, hnode⟩
      cases h' with
      | here => exact absurd hlink (hforest.root st hst)
      | @link path' st' _ hsubject' hst' hobject' =>
          have hlink' := link?_eq_some.2 ⟨hobject', hnode⟩
          -- only one statement links to the node
          obtain rfl := hforest.single st hst st' hst' node hlink hlink'
          rw [ih hsubject' ⟨st, hst, rfl⟩]

/-- What is pending on the walk through a forest: statements about subjects that have been entered,
each of them once, but none of those that have linked to these subjects. -/
structure Open (ss : List Statement) (entered : List String)
    (work : List (AttributePath × Statement)) : Prop where
  nodup : (work.map Prod.snd).Nodup
  subjects : ∀ x ∈ work, x.2 ∈ ss ∧ x.2.subject ∈ entered
  passed : ∀ st ∈ ss, ∀ node ∈ entered, link? ss st = some node →
    st.subject ∈ entered ∧ st ∉ work.map Prod.snd

variable {entered : List String} {work rest : List (AttributePath × Statement)}
  {q : AttributePath} {s : Statement}

/-- The walk starts with what is open about the record. -/
theorem Forest.open_paths (hforest : Forest record ss) :
    Open ss [record] ((about ss record).map (AttributePath.empty, ·)) where
  nodup := by
    -- what is pending at first are the statements about the record
    have hsame : ((about ss record).map (AttributePath.empty, ·)).map Prod.snd = about ss record := by
      simp [Function.comp_def]
    rw [hsame]
    exact hforest.nodup.filter _
  subjects := by
    intro x hx
    obtain ⟨st, hst, rfl⟩ := List.mem_map.1 hx
    obtain ⟨hmem, hsubject⟩ := mem_about.1 hst
    exact ⟨hmem, List.mem_singleton.2 hsubject⟩
  passed := by
    intro st hst node hnode hlink
    obtain rfl := List.mem_singleton.1 hnode
    exact absurd hlink (hforest.root st hst)

theorem Open.tail (h : Open ss entered ((q, s) :: rest)) : Open ss entered rest where
  nodup := (List.nodup_cons.1 h.nodup).2
  subjects := fun x hx => h.subjects x (List.mem_cons_of_mem _ hx)
  passed := by
    intro st hst node hnode hlink
    obtain ⟨hsubject, hnot⟩ := h.passed st hst node hnode hlink
    exact ⟨hsubject, fun hmem => hnot (List.mem_cons_of_mem _ hmem)⟩

/-- Entering the entity that a statement links to. -/
theorem Open.enter (hforest : Forest record ss) (h : Open ss entered ((q, s) :: rest))
    (hlink : link? ss s = some node) (hnew : node ∉ entered) :
    Open ss (node :: entered) ((about ss node).map (q.child s.predicate, ·) ++ rest) := by
  have hsnd : ((about ss node).map (q.child s.predicate, ·) ++ rest).map Prod.snd =
      about ss node ++ rest.map Prod.snd := by simp [Function.comp_def]
  obtain ⟨hs, hssubject⟩ := h.subjects (q, s) List.mem_cons_self
  obtain ⟨hsnot, hrest⟩ := List.nodup_cons.1 h.nodup
  -- what is pending already is about other subjects
  have hapart : ∀ st ∈ about ss node, st.subject ∉ entered := by
    intro st hst hmem
    rw [(mem_about.1 hst).2] at hmem
    exact hnew hmem
  have hentered : ∀ st ∈ rest.map Prod.snd, st.subject ∈ entered := by
    intro st hst
    obtain ⟨x, hx, rfl⟩ := List.mem_map.1 hst
    exact (h.subjects x (List.mem_cons_of_mem _ hx)).2
  refine ⟨?nodup, ?subjects, ?passed⟩
  case nodup =>
    rw [hsnd, List.nodup_append]
    refine ⟨hforest.nodup.filter _, hrest, ?_⟩
    intro st hst st' hst' heq
    exact hapart st hst (heq ▸ hentered st' hst')
  case subjects =>
    intro x hx
    rcases List.mem_append.1 hx with hx | hx
    · obtain ⟨st, hst, rfl⟩ := List.mem_map.1 hx
      obtain ⟨hmem, hsubject⟩ := mem_about.1 hst
      exact ⟨hmem, hsubject ▸ List.mem_cons_self⟩
    · obtain ⟨hmem, hsubject⟩ := h.subjects x (List.mem_cons_of_mem _ hx)
      exact ⟨hmem, List.mem_cons_of_mem _ hsubject⟩
  case passed =>
    intro st hst node' hnode' hlink'
    rw [hsnd, List.mem_append, not_or]
    rcases List.mem_cons.1 hnode' with rfl | hnode'
    · -- the entity entered now is linked by the first statement alone
      obtain rfl := hforest.single s hs st hst node' hlink hlink'
      exact ⟨List.mem_cons_of_mem _ hssubject, fun hmem => hapart _ hmem hssubject, hsnot⟩
    · obtain ⟨hsubject, hnot⟩ := h.passed st hst node' hnode' hlink'
      exact ⟨List.mem_cons_of_mem _ hsubject, fun hmem => hapart _ hmem hsubject,
        fun hmem => hnot (List.mem_cons_of_mem _ hmem)⟩

/-- In a forest the walk makes a path for every statement that comes after the pending ones and is no
link. -/
theorem mem_walk (hforest : Forest record ss) (hopen : Open ss entered work)
    {x y : AttributePath × Statement} (hx : x ∈ work) (hxy : Relation.ReflTransGen (Next ss) x y)
    (hlink : link? ss y.2 = none) : y.1.child y.2.predicate ∈ walk ss entered work := by
  fun_induction walk ss entered work generalizing x with
  | case1 entered => cases hx
  | case2 entered q s rest hnone ih =>
      rcases List.mem_cons.1 hx with rfl | hx
      · rcases hxy.cases_head with rfl | ⟨z, hnext, -⟩
        · exact List.mem_cons_self
        · rw [hnext.1] at hnone
          cases hnone
      · exact List.mem_cons_of_mem _ (ih hopen.tail hx hxy)
  | case3 entered q s rest uri hsome hentered ih =>
      -- the link would have been passed when the entity was entered
      obtain ⟨hs, -⟩ := hopen.subjects (q, s) List.mem_cons_self
      exact absurd List.mem_cons_self (hopen.passed s hs uri hentered hsome).2
  | case4 entered q s rest uri hsome hnew ih =>
      have henter := hopen.enter hforest hsome hnew
      rcases List.mem_cons.1 hx with rfl | hx
      · rcases hxy.cases_head with rfl | ⟨z, ⟨hz, hmem, hpath⟩, hrest⟩
        · rw [hsome] at hlink
          cases hlink
        · -- what comes next is about the entity that is entered
          have hsubject : z.2.subject = uri := Option.some.inj (hz.symm.trans hsome)
          have hz : z = (q.child s.predicate, z.2) := Prod.ext hpath rfl
          rw [hz] at hrest
          exact ih henter (List.mem_append_left _
            (List.mem_map_of_mem (mem_about.2 ⟨hmem, hsubject⟩))) hrest
      · exact ih henter (List.mem_append_right _ hx) hxy

/-- What a path of links leads to comes after what is pending when the walk starts. -/
theorem Reaches.pending (h : Reaches ss record path node) {t : Statement} (ht : t ∈ ss)
    (hsubject : t.subject = node) :
    ∃ x ∈ (about ss record).map (AttributePath.empty, ·),
      Relation.ReflTransGen (Next ss) x (path, t) := by
  induction h generalizing t with
  | here => exact ⟨_, List.mem_map_of_mem (mem_about.2 ⟨ht, hsubject⟩), .refl⟩
  | @link path st node _ hst hobject ih =>
      obtain ⟨x, hx, hreached⟩ := ih hst rfl
      have hlink : link? ss st = some node := link?_eq_some.2 ⟨hobject, t, ht, hsubject⟩
      have hnext : Next ss (path, st) (path.child st.predicate, t) :=
        ⟨hlink.trans (congrArg some hsubject.symm), ht, rfl⟩
      exact ⟨x, hx, hreached.tail hnext⟩

/-- In a forest the paths of a record are those that lead along links to statements that are none. -/
theorem mem_paths_iff (hforest : Forest record ss) (p : AttributePath) :
    p ∈ paths record ss ↔ ∃ path, ∃ st ∈ ss, Reaches ss record path st.subject ∧
      link? ss st = none ∧ p = path.child st.predicate := by
  constructor
  · exact exists_of_mem_paths
  · rintro ⟨path, st, hst, hreaches, hlink, rfl⟩
    obtain ⟨x, hx, hreached⟩ := hreaches.pending hst rfl
    exact mem_walk hforest hforest.open_paths hx hreached hlink

end Schema

namespace Model

variable {m : Model} {p : AttributePath}

/-- The paths that are derived are those of the records. -/
theorem mem_derivedSchema_iff :
    p ∈ m.derivedSchema.toList ↔ ∃ r ∈ m.records.toList, p ∈ Schema.paths r.1 r.2.toList := by
  rw [derivedSchema, OrderedSet.mem_ofList, List.mem_flatMap]

/-- The derived schema has the paths of all records. -/
theorem mem_derivedSchema :
    p ∈ m.derivedSchema.toList ↔ ∃ record, p ∈ Schema.paths record (m.statementsOf record).toList := by
  rw [mem_derivedSchema_iff]
  constructor
  · rintro ⟨⟨record, ss⟩, hr, hp⟩
    have hget : m.statementsFor? record = some ss := Assoc.get?_of_mem m.records.nodup_keys hr
    refine ⟨record, ?_⟩
    rw [statementsOf, hget]
    exact hp
  · rintro ⟨record, hp⟩
    cases hget : m.statementsFor? record with
    | none =>
        -- a record that the model does not have has no paths
        rw [statementsOf, hget] at hp
        have hnone : Schema.paths record [] = [] := by simp [Schema.paths, Schema.about, Schema.walk]
        exact absurd (hnone ▸ hp) List.not_mem_nil
    | some ss =>
        rw [statementsOf, hget] at hp
        exact ⟨(record, ss), OrderedMap.mem_of_get? hget, hp⟩

end Model
end Recast
