import Recast.Graph.Model

/-!
# Schema — the attribute paths of a model

Within a record, a statement whose object is the subject of statements of the same record links to
an entity; any other statement ends a path.  `Schema.paths` walks from a record along its links,
depth first and in statement order, and enters each subject at most once.
-/

namespace Recast
namespace Schema

def about (ss : List Statement) (subject : String) : List Statement :=
  ss.filter fun s => s.subject = subject

/-- The entity that a statement links to. -/
def link? (ss : List Statement) (s : Statement) : Option String :=
  match s.object with
  | .resource uri => if (about ss uri).isEmpty then none else some uri
  | .literal _ => none

/-- How many statements are about subjects that have not been entered. -/
def unentered (ss : List Statement) (entered : List String) : Nat :=
  (ss.filter fun s => s.subject ∉ entered).length

/-- Entering a subject with statements leaves fewer of them for later; this is why walking ends. -/
theorem unentered_cons_lt {ss : List Statement} {entered : List String} {uri : String}
    (hs : ¬ (about ss uri).isEmpty) (hn : uri ∉ entered) :
    unentered ss (uri :: entered) < unentered ss entered := by
  have hne : about ss uri ≠ [] := fun h => hs (by simp [h])
  -- a statement about the new subject counts before and not after
  obtain ⟨s, hmem⟩ := List.exists_mem_of_ne_nil _ hne
  have hsub : s ∈ ss ∧ s.subject = uri := by simpa [about] using hmem
  have hfilter : ss.filter (fun s => s.subject ∉ uri :: entered) =
      (ss.filter fun s => s.subject ∉ entered).filter fun s => s.subject ≠ uri := by
    rw [List.filter_filter]
    congr 1
    funext t
    simp [not_or]
  unfold unentered
  rw [hfilter]
  have hin : s ∈ ss.filter fun s => s.subject ∉ entered := by
    simp [hsub.1, hsub.2, hn]
  refine List.length_filter_lt_length_iff_exists.2 ⟨s, hin, ?_⟩
  simp [hsub.2]

/-- Walk through pending statements, each with the path that leads to its subject. -/
def walk (ss : List Statement) (entered : List String) :
    List (AttributePath × Statement) → List AttributePath
  | [] => []
  | (p, s) :: rest =>
      match _hl : link? ss s with
      -- the object is no entity: the path ends here
      | none => p.child s.predicate :: walk ss entered rest
      | some uri =>
          -- an entity that has been entered adds no paths a second time
          if _hn : uri ∈ entered then walk ss entered rest
          else
            walk ss (uri :: entered) ((about ss uri).map (p.child s.predicate, ·) ++ rest)
termination_by work => (unentered ss entered, work.length)
decreasing_by
  · exact Prod.Lex.right _ (by simp)
  · exact Prod.Lex.right _ (by simp)
  · refine Prod.Lex.left _ _ (unentered_cons_lt ?_ _hn)
    unfold link? at _hl
    split at _hl
    · split at _hl
      · exact absurd _hl (by simp)
      · rename_i he
        injection _hl with huri
        subst huri
        exact he
    · exact absurd _hl (by simp)

def paths (record : String) (ss : List Statement) : List AttributePath :=
  walk ss [record] ((about ss record).map (AttributePath.empty, ·))

end Schema

namespace Model

/-- The paths of all records, each at its first place. -/
def derivedSchema (m : Model) : OrderedSet AttributePath :=
  .ofList (m.records.toList.flatMap fun r => Schema.paths r.1 r.2.toList)

end Model
end Recast
