import Recast.Proofs.Graph.Routes

/-!
# Expansion — the walk through any statements, step by step

Links may lead back to a node that has been passed, from a node to itself, or to a node about which
nothing is stated.  The walk comes to an end all the same.  A step takes one of the pending statements
away, and the statements that it adds are about a subject that has not been expanded before: so a walk
through the statements of a record takes no more steps than there are statements, and expands no
subject twice.  Whatever it finds are the predicates along a route from the record,
`Model.derivedSchema_sound`.

* `Schema.Stage`, `Schema.Step`, `Schema.Run` — the walk as a machine;
* `Schema.Stage.left` — how many statements are still to be taken.
-/

namespace Recast
namespace Schema

open Relation (ReflTransGen)

structure Stage where
  /-- The subjects whose statements have been made pending, the last one first. -/
  expanded : List String
  pending : List (AttributePath × Statement)
  found : List AttributePath

/-- The walk through the statements of a record starts by expanding the record. -/
def Stage.start (record : String) (ss : List Statement) : Stage :=
  ⟨[record], (about ss record).map (AttributePath.empty, ·), []⟩

/-- A step takes the first of the pending statements. -/
inductive Step (ss : List Statement) : Stage → Stage → Prop
  | ends {expanded : List String} {q : AttributePath} {s : Statement}
      {rest : List (AttributePath × Statement)} {found : List AttributePath}
      (hlink : link? ss s = none) :
      Step ss ⟨expanded, (q, s) :: rest, found⟩ ⟨expanded, rest, found ++ [q.child s.predicate]⟩
  | passes {expanded : List String} {q : AttributePath} {s : Statement}
      {rest : List (AttributePath × Statement)} {found : List AttributePath} {node : String}
      (hlink : link? ss s = some node) (hold : node ∈ expanded) :
      Step ss ⟨expanded, (q, s) :: rest, found⟩ ⟨expanded, rest, found⟩
  | expands {expanded : List String} {q : AttributePath} {s : Statement}
      {rest : List (AttributePath × Statement)} {found : List AttributePath} {node : String}
      (hlink : link? ss s = some node) (hnew : node ∉ expanded) :
      Step ss ⟨expanded, (q, s) :: rest, found⟩
        ⟨node :: expanded, (about ss node).map (q.child s.predicate, ·) ++ rest, found⟩

inductive Run (ss : List Statement) : Nat → Stage → Stage → Prop
  | nil (x : Stage) : Run ss 0 x x
  | cons {n : Nat} {x y z : Stage} (hstep : Step ss x y) (hrest : Run ss n y z) : Run ss (n + 1) x z

/-- The statements that are pending, and those about subjects that have not been expanded. -/
def Stage.left (ss : List Statement) (x : Stage) : Nat :=
  unentered ss x.expanded + x.pending.length

variable {ss : List Statement} {record node : String} {x y : Stage} {n : Nat}

/-! ## Walks come to an end -/

/-- The statements about a subject are counted until it is expanded. -/
theorem unentered_cons {expanded : List String} (hnew : node ∉ expanded) :
    unentered ss (node :: expanded) + (about ss node).length = unentered ss expanded := by
  -- of the statements still to enter, those about the node are entered now and the others stay
  have habout : (ss.filter fun s => s.subject ∉ expanded).filter (fun s => s.subject = node) =
      about ss node := by
    rw [List.filter_filter, about]
    refine List.filter_congr fun s _ => ?_
    by_cases h : s.subject = node <;> simp [h, hnew]
  have hothers : (ss.filter fun s => s.subject ∉ expanded).filter (fun s => !(s.subject = node)) =
      ss.filter fun s => s.subject ∉ node :: expanded := by
    rw [List.filter_filter]
    refine List.filter_congr fun s _ => ?_
    simp [not_or]
  have hsplit := List.length_eq_length_filter_add
    (l := ss.filter fun s => s.subject ∉ expanded) (fun s => s.subject = node)
  rw [habout, hothers] at hsplit
  exact (Nat.add_comm _ _).trans hsplit.symm

/-- When the walk starts, all the statements are left. -/
theorem left_start : (Stage.start record ss).left ss = ss.length := by
  have hall : unentered ss [record] + (about ss record).length = unentered ss [] :=
    unentered_cons List.not_mem_nil
  simpa [Stage.left, Stage.start, unentered] using hall

/-- A step takes one statement. -/
theorem Step.left (h : Step ss x y) : y.left ss + 1 = x.left ss := by
  cases h with
  | ends _ => rfl
  | passes _ _ => rfl
  | @expands expanded _ _ rest _ node _ hnew =>
      have hcount : unentered ss (node :: expanded) + (about ss node).length =
          unentered ss expanded := unentered_cons hnew
      simp only [Stage.left, List.length_append, List.length_map, List.length_cons]
      omega

/-- Each step takes one of the statements that are left. -/
theorem Run.left (h : Run ss n x y) : y.left ss + n = x.left ss := by
  induction h with
  | nil => rfl
  | cons hstep _ ih =>
      rw [← hstep.left, ← ih]
      rfl

/-- As long as statements are pending there is a step. -/
theorem exists_step (ss : List Statement) (hpending : x.pending ≠ []) : ∃ y, Step ss x y := by
  obtain ⟨expanded, pending, found⟩ := x
  obtain ⟨⟨q, s⟩, rest, rfl⟩ := List.exists_cons_of_ne_nil hpending
  cases hlink : link? ss s with
  | none => exact ⟨_, .ends hlink⟩
  | some node =>
      by_cases hnode : node ∈ expanded
      · exact ⟨_, .passes hlink hnode⟩
      · exact ⟨_, .expands hlink hnode⟩

/-- From every stage the walk comes to an end. -/
theorem exists_run (ss : List Statement) (x : Stage) : ∃ n y, Run ss n x y ∧ y.pending = [] := by
  by_cases hpending : x.pending = []
  · exact ⟨0, x, .nil x, hpending⟩
  · obtain ⟨y, hstep⟩ := exists_step ss hpending
    have hless : y.left ss < x.left ss := Nat.lt_of_succ_le hstep.left.le
    obtain ⟨n, z, hrun, hend⟩ := exists_run ss y
    exact ⟨n + 1, z, .cons hstep hrun, hend⟩
termination_by x.left ss

/-! ## What steps keep -/

/-- A step expands nothing for the second time. -/
theorem Step.nodup (h : Step ss x y) (hx : x.expanded.Nodup) : y.expanded.Nodup := by
  cases h with
  | ends _ => exact hx
  | passes _ _ => exact hx
  | expands _ hnew => exact List.nodup_cons.2 ⟨hnew, hx⟩

/-- No subject is expanded twice. -/
theorem Run.nodup (h : Run ss n x y) (hx : x.expanded.Nodup) : y.expanded.Nodup := by
  induction h with
  | nil => exact hx
  | cons hstep _ ih => exact ih (hstep.nodup hx)

/-- The walk at a statement that is no link. -/
theorem walk_ends {entered : List String} {q : AttributePath} {s : Statement}
    {rest : List (AttributePath × Statement)} (hlink : link? ss s = none) :
    walk ss entered ((q, s) :: rest) = q.child s.predicate :: walk ss entered rest := by
  rw [walk]
  split
  · rfl
  · rename_i hsome
    rw [hlink] at hsome
    cases hsome

/-- The walk at a link. -/
theorem walk_links {entered : List String} {q : AttributePath} {s : Statement}
    {rest : List (AttributePath × Statement)} (hlink : link? ss s = some node) :
    walk ss entered ((q, s) :: rest) =
      if node ∈ entered then walk ss entered rest
      else walk ss (node :: entered) ((about ss node).map (q.child s.predicate, ·) ++ rest) := by
  rw [walk]
  split
  · rename_i hnone
    rw [hlink] at hnone
    cases hnone
  · rename_i hsome
    obtain rfl := Option.some.inj (hlink.symm.trans hsome)
    rfl

/-- What has been found, together with what the walk would still find, is the same after a step. -/
theorem Step.found (h : Step ss x y) :
    y.found ++ walk ss y.expanded y.pending = x.found ++ walk ss x.expanded x.pending := by
  cases h with
  | ends hlink => rw [walk_ends hlink, List.append_assoc, List.singleton_append]
  | passes hlink hold => rw [walk_links hlink, if_pos hold]
  | expands hlink hnew => rw [walk_links hlink, if_neg hnew]

/-- What has been found, with what the walk would still find, is the same before and after any
steps. -/
theorem Run.found (h : Run ss n x y) :
    y.found ++ walk ss y.expanded y.pending = x.found ++ walk ss x.expanded x.pending := by
  induction h with
  | nil => rfl
  | cons hstep _ ih => exact ih.trans hstep.found

/-- When nothing is pending any more, the paths of the record have been found. -/
theorem Run.found_eq_paths (h : Run ss n (Stage.start record ss) y) (hend : y.pending = []) :
    y.found = paths record ss := by
  calc
    y.found = y.found ++ walk ss y.expanded y.pending := by rw [hend, walk, List.append_nil]
    _ = [] ++ walk ss [record] ((about ss record).map (AttributePath.empty, ·)) := h.found
    _ = paths record ss := rfl

/-! ## Where paths come from -/

/-- From statement to statement the walk takes a route, and keeps its predicates. -/
theorem route_of_next {v w : AttributePath × Statement} (h : ReflTransGen (Next ss) v w)
    (hv : v.2 ∈ ss) : w.2 ∈ ss ∧ ∃ links, Route ss v.2.subject links w.2.subject ∧
      w.1.attributes = v.1.attributes ++ links.map Statement.predicate := by
  induction h using ReflTransGen.head_induction_on with
  | refl => exact ⟨hv, [], .here _, (List.append_nil _).symm⟩
  | @head v u hnext _ ih =>
      obtain ⟨hlink, hu, hpath⟩ := hnext
      obtain ⟨hw, links, hroute, hattributes⟩ := ih hu
      refine ⟨hw, v.2 :: links, .link hv (link?_eq_some.1 hlink) hroute, ?_⟩
      rw [hattributes, hpath]
      simp [AttributePath.child]

/-- However the links of a record lead, its paths are paths along routes. -/
theorem hasPath_of_mem_paths {p : AttributePath} (h : p ∈ paths record ss) :
    HasPath record ss p := by
  obtain ⟨v, hv, w, hnext, hend, rfl⟩ := exists_of_mem_walk h
  obtain ⟨hempty, hmem, rfl⟩ := mem_pending_iff.1 hv
  obtain ⟨hw, links, hroute, hattributes⟩ := route_of_next hnext hmem
  refine ⟨links, w.2, hroute, (ends_iff hw).2 hend, ?_⟩
  rw [hempty] at hattributes
  simp [AttributePath.child, pathOf, hattributes, AttributePath.empty]

end Schema

namespace Model

/-- Whatever the links of its records, the schema of a model is derived in a walk for each record that
comes to an end, takes no more steps than the record has statements and expands no subject twice; and
every path that is derived leads along a route from a record to a statement that is no link. -/
theorem derivedSchema_sound (m : Model) :
    (∀ r ∈ m.records.toList,
      (∃ n x, Schema.Run r.2.toList n (.start r.1 r.2.toList) x ∧ x.pending = []) ∧
      ∀ n x, Schema.Run r.2.toList n (.start r.1 r.2.toList) x →
        n ≤ r.2.toList.length ∧ x.expanded.Nodup) ∧
    (∀ p, p ∈ m.derivedSchema.toList ↔ ∃ r ∈ m.records.toList, ∃ n x,
      Schema.Run r.2.toList n (.start r.1 r.2.toList) x ∧ x.pending = [] ∧ p ∈ x.found) ∧
    ∀ p ∈ m.derivedSchema.toList, ∃ r ∈ m.records.toList, Schema.HasPath r.1 r.2.toList p := by
  refine ⟨?walks, ?derived, ?sound⟩
  case walks =>
    intro r _
    refine ⟨Schema.exists_run _ _, ?_⟩
    intro n x hrun
    refine ⟨?_, hrun.nodup (List.nodup_singleton _)⟩
    -- what is left and the steps taken always add up to all statements
    calc
      n ≤ x.left r.2.toList + n := Nat.le_add_left _ _
      _ = (Schema.Stage.start r.1 r.2.toList).left r.2.toList := hrun.left
      _ = r.2.toList.length := Schema.left_start
  case derived =>
    intro p
    rw [mem_derivedSchema_iff]
    refine exists_congr fun r => and_congr_right fun _ => ?_
    constructor
    · intro hp
      obtain ⟨n, x, hrun, hend⟩ := Schema.exists_run r.2.toList (.start r.1 r.2.toList)
      exact ⟨n, x, hrun, hend, (hrun.found_eq_paths hend).symm ▸ hp⟩
    · rintro ⟨n, x, hrun, hend, hp⟩
      exact hrun.found_eq_paths hend ▸ hp
  case sound =>
    intro p hp
    obtain ⟨r, hr, hmem⟩ := mem_derivedSchema_iff.1 hp
    exact ⟨r, hr, Schema.hasPath_of_mem_paths hmem⟩

-- a record and an entity that link to each other, and a link to nothing
example : (ofRecord "r"
    ⟨[⟨"r", "p", .resource "a", by decide, by decide, by decide⟩,
      ⟨"a", "q", .resource "r", by decide, by decide, by decide⟩,
      ⟨"a", "t", .resource "b", by decide, by decide, by decide⟩],
      by decide⟩).derivedSchema.toList = [⟨["p", "t"]⟩] := by
  simp [derivedSchema, ofRecord, Schema.paths, Schema.about, Schema.walk, Schema.link?,
    AttributePath.child, AttributePath.empty, OrderedSet.ofList, OrderedSet.insert,
    OrderedSet.insertAll, OrderedSet.empty]

end Model
end Recast
