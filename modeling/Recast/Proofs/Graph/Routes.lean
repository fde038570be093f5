import Mathlib.Order.WellFoundedSet
import Recast.Proofs.Graph.SchemaWalk

/-!
# Routes — by which links the paths of a schema go

From the record, links lead to the entities of a record, and where links meet there is more than one
route to an entity.  The walk through the statements enters an entity by one of these routes only: the
foremost, which takes from each node the first link from which the entity can be reached.  So, as long
as links never lead back, the paths that are derived are those of the foremost routes,
`Model.derivedSchema_foremost`, and they are all the paths there are if any two routes to an entity
have the same predicates.

* `Schema.Route`, `Schema.Foremost` — routes from a node to another one;
* `Schema.Ends` — a statement at which a path ends;
* `Schema.Stacked` — what the walk keeps true of the statements that are pending.
-/

namespace Recast
namespace Schema

open Relation (ReflTransGen TransGen)
open Classical

variable {ss : List Statement} {record node next last : String}

/-! ## Links and routes -/

/-- A statement links to a node about which there are statements. -/
def Links (ss : List Statement) (s : Statement) (node : String) : Prop :=
  s.object = .resource node ∧ ∃ t ∈ ss, t.subject = node

/-- A statement that links to nothing ends a path. -/
def Ends (ss : List Statement) (s : Statement) : Prop :=
  s ∈ ss ∧ ∀ node, ¬ Links ss s node

def Leads (ss : List Statement) (node next : String) : Prop :=
  ∃ s ∈ ss, s.subject = node ∧ Links ss s next

/-- Links never lead back to where they come from. -/
def Acyclic (ss : List Statement) : Prop :=
  ∀ node, ¬ TransGen (Leads ss) node node

/-- A statement links to a node from which another one can be reached. -/
def Towards (ss : List Statement) (s : Statement) (last : String) : Prop :=
  ∃ next, Links ss s next ∧ ReflTransGen (Leads ss) next last

/-- Links that lead from a node to another one, each of them about the node that the one before it
links to. -/
inductive Route (ss : List Statement) : String → List Statement → String → Prop
  | here (node : String) : Route ss node [] node
  | link {s : Statement} {next last : String} {links : List Statement} (hs : s ∈ ss)
      (hlink : Links ss s next) (hrest : Route ss next links last) :
      Route ss s.subject (s :: links) last

/-- The route that takes from each node the first link from which the last node can be reached. -/
inductive Foremost (ss : List Statement) : String → List Statement → String → Prop
  | here (node : String) : Foremost ss node [] node
  | link {s : Statement} {node next last : String} {links : List Statement}
      (hfirst : (about ss node).find? (fun t => Towards ss t last) = some s)
      (hlink : Links ss s next) (hrest : Foremost ss next links last) :
      Foremost ss node (s :: links) last

def pathOf (chain : List Statement) : AttributePath :=
  ⟨chain.map Statement.predicate⟩

/-- A path leads along a route from the record to a statement that ends it. -/
def HasPath (record : String) (ss : List Statement) (p : AttributePath) : Prop :=
  ∃ links s, Route ss record links s.subject ∧ Ends ss s ∧ p = pathOf (links ++ [s])

/-- A path leads along the foremost route from the record to a statement that ends it. -/
def HasForemostPath (record : String) (ss : List Statement) (p : AttributePath) : Prop :=
  ∃ links s, Foremost ss record links s.subject ∧ Ends ss s ∧ p = pathOf (links ++ [s])

/-- Whatever routes lead from the record to one node, they have the same predicates. -/
def Unforked (record : String) (ss : List Statement) : Prop :=
  ∀ node links links', Route ss record links node → Route ss record links' node →
    pathOf links = pathOf links'

theorem Links.unique {s : Statement} (h : Links ss s node) (h' : Links ss s next) : node = next :=
  Node.resource.inj (h.1.symm.trans h'.1)

theorem ends_iff {s : Statement} (hs : s ∈ ss) : Ends ss s ↔ link? ss s = none := by
  rw [Option.eq_none_iff_forall_ne_some]
  constructor
  · intro h node hlink
    exact h.2 node (link?_eq_some.1 hlink)
  · intro h
    exact ⟨hs, fun node hlink => h node (link?_eq_some.2 hlink)⟩

theorem Leads.of_about {s : Statement} (hs : s ∈ about ss node) (hlink : Links ss s next) :
    Leads ss node next :=
  ⟨s, (mem_about.1 hs).1, (mem_about.1 hs).2, hlink⟩

/-- A route leads to what it leads to by links. -/
theorem Route.reaches {links : List Statement} (h : Route ss node links last) :
    ReflTransGen (Leads ss) node last := by
  induction h with
  | here => exact .refl
  | link hs hlink _ ih => exact .head ⟨_, hs, rfl, hlink⟩ ih

/-- A foremost route is a route. -/
theorem Foremost.route {links : List Statement} (h : Foremost ss node links last) :
    Route ss node links last := by
  induction h with
  | here node => exact .here node
  | @link s node _ _ _ hfirst hlink _ ih =>
      obtain ⟨hs, rfl⟩ := mem_about.1 (List.mem_of_find?_eq_some hfirst)
      exact .link hs hlink ih

/-- The way back to a node is none. -/
theorem Foremost.eq_nil (hacyclic : Acyclic ss) {links : List Statement}
    (h : Foremost ss node links node) : links = [] := by
  cases h with
  | here => rfl
  | link hfirst hlink hrest =>
      have hleads := Leads.of_about (List.mem_of_find?_eq_some hfirst) hlink
      exact absurd (TransGen.head' hleads hrest.route.reaches) (hacyclic node)

/-- If a node can be reached from another one, a statement about this one is the first that leads
towards it. -/
theorem exists_first_towards (h : ReflTransGen (Leads ss) node last) (hne : node ≠ last) :
    ∃ s next, (about ss node).find? (fun t => Towards ss t last) = some s ∧ Links ss s next ∧
      ReflTransGen (Leads ss) next last := by
  rcases h.cases_head with heq | ⟨next, ⟨t, ht, hsubject, hlink⟩, hrest⟩
  · exact absurd heq hne
  · have htowards : Towards ss t last := ⟨next, hlink, hrest⟩
    obtain ⟨s, hfirst⟩ : ∃ s, (about ss node).find? (fun t => Towards ss t last) = some s :=
      Option.isSome_iff_exists.1
        (List.find?_isSome.2 ⟨t, mem_about.2 ⟨ht, hsubject⟩, by simpa using htowards⟩)
    obtain ⟨next', hlink', hrest'⟩ : Towards ss s last := by simpa using List.find?_some hfirst
    exact ⟨s, next', hfirst, hlink', hrest'⟩

/-- Links that never lead back come to an end. -/
theorem wellFoundedOn_leads (hacyclic : Acyclic ss) :
    {node | ∃ s ∈ ss, s.subject = node}.WellFoundedOn fun node next =>
      TransGen (Leads ss) next node := by
  have hfinite : {node | ∃ s ∈ ss, s.subject = node}.Finite := by
    have himage : {node | ∃ s ∈ ss, s.subject = node} =
        {node | node ∈ ss.map Statement.subject} := by
      ext node
      simp
    rw [himage]
    exact List.finite_toSet _
  have : IsStrictOrder String fun node next => TransGen (Leads ss) next node :=
    { irrefl := hacyclic
      trans := fun _ _ _ h h' => h'.trans h }
  exact hfinite.wellFoundedOn

/-- Wherever links lead, there is a foremost route. -/
theorem exists_foremost (hacyclic : Acyclic ss) (h : ReflTransGen (Leads ss) node last) :
    ∃ links, Foremost ss node links last := by
  by_cases hsubject : ∃ s ∈ ss, s.subject = node
  case neg =>
    -- nothing is stated about the node, so no link leads on
    rcases h.cases_head with rfl | ⟨next, ⟨s, hs, hnode, -⟩, -⟩
    · exact ⟨[], .here node⟩
    · exact absurd ⟨s, hs, hnode⟩ hsubject
  case pos =>
    refine (wellFoundedOn_leads hacyclic).induction
      (P := fun node => ReflTransGen (Leads ss) node last → ∃ links, Foremost ss node links last)
      hsubject ?_ h
    intro node _ ih h
    by_cases hne : node = last
    · exact hne ▸ ⟨[], .here node⟩
    obtain ⟨s, next, hfirst, hlink, hnext⟩ := exists_first_towards h hne
    have hleads := Leads.of_about (List.mem_of_find?_eq_some hfirst) hlink
    obtain ⟨links, hlinks⟩ := ih next hlink.2 (.single hleads) hnext
    exact ⟨s :: links, .link hfirst hlink hlinks⟩

/-! ## Pending statements -/

/-- What is pending on the walk: statements about subjects that have been entered, the later ones
about nodes from which links lead to those of the earlier ones.  No link from a subject that has been
entered is left out: it is pending, or has been followed. -/
structure Stacked (ss : List Statement) (entered : List String)
    (work : List (AttributePath × Statement)) : Prop where
  subjects : ∀ x ∈ work, x.2 ∈ ss ∧ x.2.subject ∈ entered
  ordered : work.Pairwise fun x y => ReflTransGen (Leads ss) y.2.subject x.2.subject
  followed : ∀ s ∈ ss, s.subject ∈ entered → ∀ node, Links ss s node →
    node ∈ entered ∨ s ∈ work.map Prod.snd

variable {entered : List String} {work rest : List (AttributePath × Statement)}
  {q path p : AttributePath} {s : Statement}

/-- The statements about a node are made pending together, behind one path. -/
theorem mem_pending_iff {x : AttributePath × Statement} :
    x ∈ (about ss node).map (path, ·) ↔ x.1 = path ∧ x.2 ∈ ss ∧ x.2.subject = node := by
  obtain ⟨q, t⟩ := x
  simp only [List.mem_map, Prod.mk.injEq, mem_about]
  constructor
  · rintro ⟨_, hmem, rfl, rfl⟩
    exact ⟨rfl, hmem⟩
  · rintro ⟨rfl, hmem⟩
    exact ⟨t, hmem, rfl, rfl⟩

/-- They have one subject, so that none of them stands behind another. -/
theorem ordered_pending : ((about ss node).map (path, ·)).Pairwise fun x y =>
    ReflTransGen (Leads ss) y.2.subject x.2.subject := by
  refine List.pairwise_of_forall_mem_list fun x hx y hy => ?_
  rw [(mem_pending_iff.1 hx).2.2, (mem_pending_iff.1 hy).2.2]

/-- The walk starts with what is stacked about the record. -/
theorem stacked_paths : Stacked ss [record] ((about ss record).map (AttributePath.empty, ·)) where
  subjects := by
    intro x hx
    obtain ⟨-, hmem, hsubject⟩ := mem_pending_iff.1 hx
    exact ⟨hmem, List.mem_singleton.2 hsubject⟩
  ordered := ordered_pending
  followed := by
    intro t ht hsubject node _
    right
    exact List.mem_map.2
      ⟨(.empty, t), mem_pending_iff.2 ⟨rfl, ht, List.mem_singleton.1 hsubject⟩, rfl⟩

/-- A statement whose node has been entered can be taken off. -/
theorem Stacked.tail (h : Stacked ss entered ((q, s) :: rest))
    (hhead : ∀ node, Links ss s node → node ∈ entered) : Stacked ss entered rest where
  subjects := fun x hx => h.subjects x (List.mem_cons_of_mem _ hx)
  ordered := h.ordered.tail
  followed := by
    intro t ht hsubject node hlink
    rcases h.followed t ht hsubject node hlink with hmem | hmem
    · exact .inl hmem
    · rcases List.mem_cons.1 hmem with rfl | hmem
      · exact .inl (hhead node hlink)
      · exact .inr hmem

/-- Entering the node that a statement links to. -/
theorem Stacked.enter (h : Stacked ss entered ((q, s) :: rest)) (hlink : Links ss s next) :
    Stacked ss (next :: entered) ((about ss next).map (path, ·) ++ rest) where
  subjects := by
    intro x hx
    rcases List.mem_append.1 hx with hx | hx
    · obtain ⟨-, hmem, hsubject⟩ := mem_pending_iff.1 hx
      exact ⟨hmem, hsubject ▸ List.mem_cons_self⟩
    · obtain ⟨hmem, hsubject⟩ := h.subjects x (List.mem_cons_of_mem _ hx)
      exact ⟨hmem, List.mem_cons_of_mem _ hsubject⟩
  ordered := by
    have hs := (h.subjects (q, s) List.mem_cons_self).1
    obtain ⟨hfirst, hrest⟩ := List.pairwise_cons.1 h.ordered
    refine List.pairwise_append.2 ⟨ordered_pending, hrest, fun x hx y hy => ?_⟩
    -- what was pending behind the statement leads to it, and then on to the node
    rw [(mem_pending_iff.1 hx).2.2]
    exact (hfirst y hy).tail ⟨s, hs, rfl, hlink⟩
  followed := by
    intro t ht hsubject node hlink'
    rcases List.mem_cons.1 hsubject with hsubject | hsubject
    · right
      exact List.mem_map.2
        ⟨(path, t), List.mem_append_left _ (mem_pending_iff.2 ⟨rfl, ht, hsubject⟩), rfl⟩
    · rcases h.followed t ht hsubject node hlink' with hmem | hmem
      · exact .inl (List.mem_cons_of_mem _ hmem)
      · rcases List.mem_cons.1 hmem with rfl | hmem
        · exact .inl (hlink.unique hlink' ▸ List.mem_cons_self)
        · right
          rw [List.map_append]
          exact List.mem_append_right _ hmem

/-- If the first statement links to a node that has been entered, then so has every node that can be
reached from there: what is still pending would lead back. -/
theorem Stacked.closed (hacyclic : Acyclic ss) (h : Stacked ss entered ((q, s) :: rest))
    (hlink : Links ss s next) (hnext : next ∈ entered)
    (hnode : ReflTransGen (Leads ss) next node) : node ∈ entered := by
  have hs := (h.subjects (q, s) List.mem_cons_self).1
  have hordered := (List.pairwise_cons.1 h.ordered).1
  -- by induction on the way: what a node that has been entered links to has been entered, or it is
  -- pending
  induction hnode with
  | refl => exact hnext
  | @tail other node hother hleads ih =>
      obtain ⟨t, ht, hsubject, hlink'⟩ := hleads
      refine (h.followed t ht (hsubject ▸ ih) node hlink').resolve_right fun hpending => ?_
      -- what is pending stands behind the statement, and so leads to its subject
      have hback : ReflTransGen (Leads ss) other s.subject := by
        obtain ⟨x, hx, rfl⟩ := List.mem_map.1 hpending
        rcases List.mem_cons.1 hx with rfl | hx
        · exact hsubject ▸ .refl
        · exact hsubject ▸ hordered x hx
      exact hacyclic next (.tail' (hother.trans hback) ⟨s, hs, rfl, hlink⟩)

/-! ## Entering nodes -/

/-- Of the pending statements the first one that leads towards a node is the one by which it is entered,
and from there on the route is the foremost. -/
def Enters (ss : List Statement) (work : List (AttributePath × Statement)) (path : AttributePath)
    (node : String) : Prop :=
  ∃ q s next links, work.find? (fun x => Towards ss x.2 node) = some (q, s) ∧ Links ss s next ∧
    Foremost ss next links node ∧ path = ⟨q.attributes ++ (pathOf (s :: links)).attributes⟩

/-- A statement that does not lead towards a node is not the one by which it is entered. -/
theorem enters_cons_of_not (h : ¬ Towards ss s node) :
    Enters ss ((q, s) :: rest) path node ↔ Enters ss rest path node := by
  unfold Enters
  rw [List.find?_cons_of_neg (by simpa using h)]

/-- A statement that leads towards a node is the one by which it is entered, if it comes first. -/
theorem enters_cons (hlink : Links ss s next) (h : ReflTransGen (Leads ss) next node) :
    Enters ss ((q, s) :: rest) path node ↔ ∃ links, Foremost ss next links node ∧
      path = ⟨q.attributes ++ (pathOf (s :: links)).attributes⟩ := by
  have htowards : Towards ss s node := ⟨next, hlink, h⟩
  unfold Enters
  rw [List.find?_cons_of_pos (by simpa using htowards)]
  constructor
  · rintro ⟨_, _, next', links, heq, hlink', hforemost, rfl⟩
    cases heq
    obtain rfl := hlink.unique hlink'
    exact ⟨links, hforemost, rfl⟩
  · rintro ⟨links, hforemost, rfl⟩
    exact ⟨q, s, next, links, rfl, hlink, hforemost, rfl⟩

/-- The node that the first statement links to is entered right behind it. -/
theorem enters_next (hacyclic : Acyclic ss) (hlink : Links ss s next) :
    Enters ss ((q, s) :: rest) path next ↔ path = q.child s.predicate := by
  rw [enters_cons hlink .refl]
  constructor
  · rintro ⟨links, hforemost, rfl⟩
    rw [hforemost.eq_nil hacyclic]
    rfl
  · rintro rfl
    exact ⟨[], .here next, rfl⟩

/-- Any other node is entered by the same path if the statements about this one take the place of the
first statement. -/
theorem enters_about (hlink : Links ss s next) (hne : next ≠ node) :
    Enters ss ((about ss next).map (q.child s.predicate, ·) ++ rest) path node ↔
      Enters ss ((q, s) :: rest) path node := by
  have hfind : ((about ss next).map (q.child s.predicate, ·)).find? (fun x => Towards ss x.2 node) =
      ((about ss next).find? fun t => Towards ss t node).map (q.child s.predicate, ·) :=
    List.find?_map
  by_cases hreaches : ReflTransGen (Leads ss) next node
  case pos =>
    -- the node is reached through the first statement of the next one that leads towards it
    obtain ⟨first, _, hfirst, -, -⟩ := exists_first_towards hreaches hne
    rw [enters_cons hlink hreaches, Enters, List.find?_append, hfind, hfirst]
    constructor
    · rintro ⟨_, _, next', links, heq, hlink', hforemost, rfl⟩
      cases heq
      refine ⟨first :: links, .link hfirst hlink' hforemost, ?_⟩
      simp [pathOf, AttributePath.child]
    · rintro ⟨links, hforemost, rfl⟩
      cases hforemost with
      | here => exact absurd rfl hne
      | link hfirst' hlink' hrest =>
          obtain rfl := Option.some.inj (hfirst.symm.trans hfirst')
          refine ⟨_, first, _, _, rfl, hlink', hrest, ?_⟩
          simp [pathOf, AttributePath.child]
  case neg =>
    -- the next node does not lead on to this one, so nothing changes
    have hnot : ¬ Towards ss s node := by
      rintro ⟨next', hlink', hreaches'⟩
      exact hreaches (hlink.unique hlink' ▸ hreaches')
    have hnone : (about ss next).find? (fun t => Towards ss t node) = none := by
      refine List.find?_eq_none.2 fun t ht => ?_
      rw [decide_eq_true_iff]
      rintro ⟨next', hlink', hreaches'⟩
      exact hreaches (.head (Leads.of_about ht hlink') hreaches')
    rw [enters_cons_of_not hnot, Enters, Enters, List.find?_append, hfind, hnone]
    rfl

/-- A link in front of the pending statements ends no path. -/
theorem exists_ends_cons (hlink : Links ss s next) :
    (∃ x ∈ (q, s) :: rest, Ends ss x.2 ∧ p = x.1.child x.2.predicate) ↔
      ∃ x ∈ rest, Ends ss x.2 ∧ p = x.1.child x.2.predicate := by
  have hnot : ¬ Ends ss s := fun hends => hends.2 next hlink
  simp only [List.mem_cons, exists_eq_or_imp, hnot, false_and, false_or]

/-- The walk makes a path for every pending statement that is no link, and one for every such statement
about a node that is entered later. -/
theorem mem_walk_foremost (hacyclic : Acyclic ss) (hstacked : Stacked ss entered work) :
    p ∈ walk ss entered work ↔
      (∃ x ∈ work, Ends ss x.2 ∧ p = x.1.child x.2.predicate) ∨
      ∃ path s, Enters ss work path s.subject ∧ s.subject ∉ entered ∧ Ends ss s ∧
        p = path.child s.predicate := by
  fun_induction walk ss entered work with
  | case1 entered => simp [Enters]
  | case2 entered q s rest hnone ih =>
      have hs := (hstacked.subjects (q, s) List.mem_cons_self).1
      have hends : Ends ss s := (ends_iff hs).2 hnone
      have hskip : ∀ path node, Enters ss ((q, s) :: rest) path node ↔ Enters ss rest path node := by
        intro path node
        refine enters_cons_of_not ?_
        rintro ⟨next, hlink, -⟩
        exact hends.2 next hlink
      rw [List.mem_cons, ih (hstacked.tail fun node hlink => absurd hlink (hends.2 node))]
      simp only [hskip, List.mem_cons, exists_eq_or_imp, hends, true_and, or_assoc]
  | case3 entered q s rest uri hsome hentered ih =>
      have hlink : Links ss s uri := link?_eq_some.1 hsome
      rw [ih (hstacked.tail fun node hlink' => hlink.unique hlink' ▸ hentered)]
      refine or_congr (exists_ends_cons hlink).symm (exists₂_congr fun path t => and_congr_left ?_)
      -- whatever can be reached by the link has been entered
      rintro ⟨hout, -⟩
      refine (enters_cons_of_not ?_).symm
      rintro ⟨next, hlink', hreaches⟩
      obtain rfl := hlink.unique hlink'
      exact hout (hstacked.closed hacyclic hlink hentered hreaches)
  | case4 entered q s rest uri hsome hnew ih =>
      have hlink : Links ss s uri := link?_eq_some.1 hsome
      rw [ih (hstacked.enter hlink), exists_ends_cons hlink]
      constructor
      · rintro (⟨x, hx, hends, rfl⟩ | ⟨path, t, henters, hout, hends, rfl⟩)
        · rcases List.mem_append.1 hx with hx | hx
          · -- what ends about the entity is behind the link to it
            obtain ⟨hpath, -, rfl⟩ := mem_pending_iff.1 hx
            exact .inr ⟨_, x.2, (enters_next hacyclic hlink).2 hpath, hnew, hends, rfl⟩
          · exact .inl ⟨x, hx, hends, rfl⟩
        · obtain ⟨hne, hout⟩ := not_or.1 (mt List.mem_cons.2 hout)
          exact .inr ⟨path, t, (enters_about hlink (Ne.symm hne)).1 henters, hout, hends, rfl⟩
      · rintro (⟨x, hx, hends, rfl⟩ | ⟨path, t, henters, hout, hends, rfl⟩)
        · exact .inl ⟨x, List.mem_append_right _ hx, hends, rfl⟩
        · by_cases hne : uri = t.subject
          · subst hne
            obtain rfl := (enters_next hacyclic hlink).1 henters
            refine .inl ⟨(q.child s.predicate, t), List.mem_append_left _ ?_, hends, rfl⟩
            exact mem_pending_iff.2 ⟨rfl, hends.1, rfl⟩
          · refine .inr ⟨path, t, (enters_about hlink hne).2 henters, ?_, hends, rfl⟩
            exact mt List.mem_cons.1 (not_or.2 ⟨Ne.symm hne, hout⟩)

/-! ## The paths of a record -/

/-- The walk starts with the statements about the record, so it enters every other node by the foremost
route from the record. -/
theorem enters_paths_iff (hne : record ≠ node) :
    Enters ss ((about ss record).map (AttributePath.empty, ·)) path node ↔
      ∃ links, Foremost ss record links node ∧ path = pathOf links := by
  unfold Enters
  rw [List.find?_map]
  constructor
  · rintro ⟨q, s, next, links, hfind, hlink, hforemost, rfl⟩
    obtain ⟨t, hfirst, heq⟩ := Option.map_eq_some_iff.1 hfind
    cases heq
    exact ⟨s :: links, .link hfirst hlink hforemost, rfl⟩
  · rintro ⟨links, hforemost, rfl⟩
    cases hforemost with
    | here => exact absurd rfl hne
    | link hfirst hlink hrest =>
        exact ⟨.empty, _, _, _, Option.map_eq_some_iff.2 ⟨_, hfirst, rfl⟩, hlink, hrest, rfl⟩

/-- As long as links never lead back, the paths of a record are those along the foremost routes. -/
theorem mem_paths_foremost (hacyclic : Acyclic ss) :
    p ∈ paths record ss ↔ HasForemostPath record ss p := by
  have hchild : ∀ links s, (pathOf links).child s.predicate = pathOf (links ++ [s]) := by
    intro links s
    simp [pathOf, AttributePath.child]
  rw [paths, mem_walk_foremost hacyclic stacked_paths]
  constructor
  · -- what is pending at first is about the record itself, everything else is entered later
    rintro (⟨x, hx, hends, rfl⟩ | ⟨path, s, henters, hout, hends, rfl⟩)
    · obtain ⟨hempty, -, rfl⟩ := mem_pending_iff.1 hx
      exact ⟨[], x.2, .here _, hends, by rw [hempty]; rfl⟩
    · have hne : record ≠ s.subject := fun heq => hout (List.mem_singleton.2 heq.symm)
      obtain ⟨links, hforemost, rfl⟩ := (enters_paths_iff hne).1 henters
      exact ⟨links, s, hforemost, hends, hchild links s⟩
  · rintro ⟨links, s, hforemost, hends, rfl⟩
    -- a path to the record itself has no links
    by_cases hne : record = s.subject
    · subst hne
      rw [hforemost.eq_nil hacyclic]
      exact .inl ⟨(.empty, s), mem_pending_iff.2 ⟨rfl, hends.1, rfl⟩, hends, rfl⟩
    · refine .inr ⟨pathOf links, s, (enters_paths_iff hne).2 ⟨links, hforemost, rfl⟩, ?_, hends, ?_⟩
      · exact fun hmem => hne (List.mem_singleton.1 hmem).symm
      · exact (hchild links s).symm

/-- If any two routes to a node have the same predicates, the paths of a record are those along any
routes. -/
theorem mem_paths_of_unforked (hacyclic : Acyclic ss) (hunforked : Unforked record ss) :
    p ∈ paths record ss ↔ HasPath record ss p := by
  rw [mem_paths_foremost hacyclic]
  constructor
  · rintro ⟨links, s, hforemost, hends, rfl⟩
    exact ⟨links, s, hforemost.route, hends, rfl⟩
  · rintro ⟨links, s, hroute, hends, rfl⟩
    obtain ⟨links', hforemost⟩ := exists_foremost hacyclic hroute.reaches
    have hsame := hunforked _ links links' hroute hforemost.route
    refine ⟨links', s, hforemost, hends, ?_⟩
    simp only [pathOf, List.map_append, AttributePath.mk.injEq] at hsame ⊢
    rw [hsame]

/-! ## Ranks and labels -/

/-- Links that lead from lower ranks to higher ones never lead back. -/
theorem acyclic_of_rank (rank : String → Nat)
    (h : ∀ s ∈ ss, ∀ node ∈ link? ss s, rank s.subject < rank node) : Acyclic ss := by
  have hrank : ∀ node next, TransGen (Leads ss) node next → rank node < rank next := by
    intro node next hleads
    induction hleads with
    | single hstep =>
        obtain ⟨s, hs, rfl, hlink⟩ := hstep
        exact h s hs _ (link?_eq_some.2 hlink)
    | tail _ hstep ih =>
        obtain ⟨s, hs, rfl, hlink⟩ := hstep
        exact ih.trans (h s hs _ (link?_eq_some.2 hlink))
  intro node hleads
  exact Nat.lt_irrefl _ (hrank node node hleads)

/-- If nodes can be labelled with the predicates that lead to them, no two routes differ in these. -/
theorem unforked_of_label (label : String → List String) (hrecord : label record = [])
    (h : ∀ s ∈ ss, ∀ node ∈ link? ss s, label node = label s.subject ++ [s.predicate]) :
    Unforked record ss := by
  have hlabel : ∀ node links last, Route ss node links last →
      label last = label node ++ links.map Statement.predicate := by
    intro node links last hroute
    induction hroute with
    | here node => simp
    | @link s next last links hs hlink _ ih =>
        rw [ih, h s hs next (link?_eq_some.2 hlink)]
        simp
  intro node links links' hroute hroute'
  have hsame := (hlabel record links node hroute).symm.trans (hlabel record links' node hroute')
  rw [hrecord, List.nil_append, List.nil_append] at hsame
  exact congrArg AttributePath.mk hsame

end Schema

namespace Model

/-- As long as the links of no record lead back, the paths that are derived are those along the foremost
routes; and they are those along any routes if no two routes to one entity differ in predicates. -/
theorem derivedSchema_foremost {m : Model}
    (hacyclic : ∀ r ∈ m.records.toList, Schema.Acyclic r.2.toList) :
    (∀ p, p ∈ m.derivedSchema.toList ↔
      ∃ r ∈ m.records.toList, Schema.HasForemostPath r.1 r.2.toList p) ∧
    ((∀ r ∈ m.records.toList, Schema.Unforked r.1 r.2.toList) →
      ∀ p, p ∈ m.derivedSchema.toList ↔
        ∃ r ∈ m.records.toList, Schema.HasPath r.1 r.2.toList p) := by
  constructor
  · intro p
    rw [mem_derivedSchema_iff]
    refine exists_congr fun r => and_congr_right fun hr => ?_
    exact Schema.mem_paths_foremost (hacyclic r hr)
  · intro hunforked p
    rw [mem_derivedSchema_iff]
    refine exists_congr fun r => and_congr_right fun hr => ?_
    exact Schema.mem_paths_of_unforked (hacyclic r hr) (hunforked r hr)

def ofRecord (record : String) (ss : OrderedSet Statement) : Model :=
  ⟨⟨[(record, ss)], List.nodup_singleton _⟩, none, .empty⟩

/-- Two links from the record, with one predicate, to two entities that link to a third one. -/
def diamond : Model :=
  ofRecord "r"
    ⟨[⟨"r", "p", .resource "a", by decide, by decide, by decide⟩,
      ⟨"r", "p", .resource "b", by decide, by decide, by decide⟩,
      ⟨"a", "q", .resource "c", by decide, by decide, by decide⟩,
      ⟨"b", "q", .resource "c", by decide, by decide, by decide⟩,
      ⟨"c", "t", .literal "x", by decide, by decide, by decide⟩], by decide⟩

def diamondLabel (node : String) : List String :=
  if node = "r" then [] else if node = "c" then ["p", "q"] else ["p"]

/-- Two links to entities that meet again in a third one, along the same predicates. -/
theorem derivedSchema_foremost_diamond :
    (∀ r ∈ diamond.records.toList, Schema.Acyclic r.2.toList) ∧
      (∀ r ∈ diamond.records.toList, Schema.Unforked r.1 r.2.toList) ∧
      (∀ p, p ∈ diamond.derivedSchema.toList ↔
        ∃ r ∈ diamond.records.toList, Schema.HasForemostPath r.1 r.2.toList p) ∧
      ∀ p, p ∈ diamond.derivedSchema.toList ↔
        ∃ r ∈ diamond.records.toList, Schema.HasPath r.1 r.2.toList p := by
  have hlabel : ∀ r ∈ diamond.records.toList, ∀ s ∈ r.2.toList,
      ∀ node ∈ Schema.link? r.2.toList s,
        diamondLabel node = diamondLabel s.subject ++ [s.predicate] := by decide +kernel
  have hrecord : ∀ r ∈ diamond.records.toList, diamondLabel r.1 = [] := by decide +kernel
  -- the label of a node grows with every link, so no way comes back
  have hacyclic : ∀ r ∈ diamond.records.toList, Schema.Acyclic r.2.toList := by
    intro r hr
    refine Schema.acyclic_of_rank (fun node => (diamondLabel node).length) fun s hs node hnode => ?_
    rw [hlabel r hr s hs node hnode]
    simp
  have hunforked : ∀ r ∈ diamond.records.toList, Schema.Unforked r.1 r.2.toList := by
    intro r hr
    exact Schema.unforked_of_label diamondLabel (hrecord r hr) (hlabel r hr)
  obtain ⟨hforemost, hall⟩ := derivedSchema_foremost hacyclic
  exact ⟨hacyclic, hunforked, hforemost, hall hunforked⟩

/-- A record with two links to one entity under two predicates. -/
def twoLinks : List Statement :=
  [⟨"r", "p", .resource "a", by decide, by decide, by decide⟩,
    ⟨"r", "q", .resource "a", by decide, by decide, by decide⟩,
    ⟨"a", "t", .literal "x", by decide, by decide, by decide⟩]

def forked : Model := ofRecord "r" ⟨twoLinks, by decide⟩

/-- The path behind the second link is not derived. -/
theorem forked_path_missing :
    (∀ r ∈ forked.records.toList, Schema.Acyclic r.2.toList) ∧
      ¬ ∀ p, p ∈ forked.derivedSchema.toList ↔
        ∃ r ∈ forked.records.toList, Schema.HasPath r.1 r.2.toList p := by
  let rank : String → Nat := fun node => if node = "r" then 0 else 1
  have hrank : ∀ r ∈ forked.records.toList, ∀ s ∈ r.2.toList,
      ∀ node ∈ Schema.link? r.2.toList s, rank s.subject < rank node := by decide +kernel
  have hpaths : Schema.paths "r" twoLinks = [⟨["p", "t"]⟩] := by
    simp [Schema.paths, Schema.about, Schema.walk, Schema.link?, twoLinks, AttributePath.child,
      AttributePath.empty]
  -- the way through the second link is a path, but nothing follows it
  have hlink : Schema.Links twoLinks twoLinks[1] "a" := ⟨rfl, twoLinks[2], by decide, rfl⟩
  have hroute : Schema.Route twoLinks "r" [twoLinks[1]] "a" := .link (by decide) hlink (.here "a")
  have hends : Schema.Ends twoLinks twoLinks[2] := ⟨by decide, fun _ hlink => by cases hlink.1⟩
  refine ⟨fun r hr => Schema.acyclic_of_rank rank (hrank r hr), ?_⟩
  intro hall
  have hpath : ∃ r ∈ forked.records.toList, Schema.HasPath r.1 r.2.toList ⟨["q", "t"]⟩ :=
    ⟨_, List.mem_singleton_self _, _, _, hroute, hends, rfl⟩
  obtain ⟨r, hr, hmem⟩ := mem_derivedSchema_iff.1 ((hall ⟨["q", "t"]⟩).2 hpath)
  obtain rfl := List.mem_singleton.1 hr
  rw [hpaths] at hmem
  exact absurd hmem (by decide)

end Model
end Recast
