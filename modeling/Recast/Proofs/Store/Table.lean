import Mathlib.Data.List.Induction
import Recast.Proofs.OrderedMap
import Recast.Proofs.OrderedSet
import Recast.Store.Table

/-!
# Table — what a table holds after writes

A table is known by the list of the cells that have been written to it, one after the other.  Under a
subject and a predicate the last write counts, `cell?_writeAll`; subjects, and the predicates of each
of them, stand where they were first written, `keys_writeAll` and `keys_row_writeAll`.
-/

namespace Recast
namespace Table

variable (cs : List Cell) (subject predicate : String)

/-- The object that the last of the writes under a subject and a predicate sets. -/
def lastObject? : Option String :=
  (cs.filter fun c => c.subject = subject ∧ c.predicate = predicate).getLast?.map Cell.object

def subjectsOf : List String :=
  (OrderedSet.ofList (cs.map Cell.subject)).toList

def predicatesOf : List String :=
  (OrderedSet.ofList ((cs.filter fun c => c.subject = subject).map Cell.predicate)).toList

/-! ## One write more -/

section Concat

variable (c : Cell)

/-- The last write counts if it sets the cell. -/
theorem lastObject?_concat :
    lastObject? (cs ++ [c]) subject predicate =
      if c.subject = subject ∧ c.predicate = predicate then some c.object
      else lastObject? cs subject predicate := by
  unfold lastObject?
  rw [List.filter_append]
  by_cases hc : c.subject = subject ∧ c.predicate = predicate
  · simp [hc]
  · simp [hc]

theorem subjectsOf_concat :
    subjectsOf (cs ++ [c]) =
      if c.subject ∈ subjectsOf cs then subjectsOf cs else subjectsOf cs ++ [c.subject] := by
  unfold subjectsOf
  rw [List.map_append, List.map_singleton, OrderedSet.ofList_concat, OrderedSet.toList_insert]

theorem predicatesOf_concat :
    predicatesOf (cs ++ [c]) subject =
      if c.subject = subject then
        if c.predicate ∈ predicatesOf cs subject then predicatesOf cs subject
        else predicatesOf cs subject ++ [c.predicate]
      else predicatesOf cs subject := by
  unfold predicatesOf
  rw [List.filter_append, List.map_append]
  by_cases hc : c.subject = subject
  · have hlast : ([c].filter fun c => c.subject = subject).map Cell.predicate = [c.predicate] := by
      simp [hc]
    rw [if_pos hc, hlast, OrderedSet.ofList_concat, OrderedSet.toList_insert]
  · have hlast : ([c].filter fun c => c.subject = subject).map Cell.predicate = [] := by
      simp [hc]
    rw [if_neg hc, hlast, List.append_nil]

theorem writeAll_concat (t : Table) : t.writeAll (cs ++ [c]) = (t.writeAll cs).write c :=
  List.foldl_append

end Concat

/-! ## Tables that are written -/

/-- A cell holds the object of the last write to it, or else what it held before the writes. -/
theorem cell?_writeAll_onto (t : Table) :
    (t.writeAll cs).cell? subject predicate =
      (lastObject? cs subject predicate).or (t.cell? subject predicate) := by
  induction cs using List.reverseRecOn with
  | nil => rfl
  | append_singleton cs c ih =>
      -- the last write decides if it is one to the cell
      rw [writeAll_concat, cell?_write, ih, lastObject?_concat]
      split <;> rfl

/-- A cell holds the object that has last been written to it. -/
theorem cell?_writeAll :
    (writeAll .empty cs).cell? subject predicate = lastObject? cs subject predicate := by
  have hempty : cell? .empty subject predicate = none := rfl
  rw [cell?_writeAll_onto, hempty, Option.or_none]

/-- Subjects come in the order of the first writes about them. -/
theorem keys_writeAll : (writeAll .empty cs).keys = subjectsOf cs := by
  induction cs using List.reverseRecOn with
  | nil => rfl
  | append_singleton cs c ih =>
      calc (writeAll .empty (cs ++ [c])).keys
          = ((writeAll .empty cs).write c).keys := by rw [writeAll_concat]
        _ = if c.subject ∈ subjectsOf cs then subjectsOf cs else subjectsOf cs ++ [c.subject] := by
            rw [write, OrderedMap.keys_put, ih]
        _ = subjectsOf (cs ++ [c]) := by rw [subjectsOf_concat]

/-- The predicates of a row come in the order of the first writes with them. -/
theorem keys_row_writeAll :
    ((writeAll .empty cs).row subject).keys = predicatesOf cs subject := by
  induction cs using List.reverseRecOn with
  | nil => rfl
  | append_singleton cs c ih =>
      rw [writeAll_concat, row_write, predicatesOf_concat]
      by_cases hc : c.subject = subject
      · rw [if_pos hc, if_pos hc, OrderedMap.keys_put, hc, ih]
      · rw [if_neg hc, if_neg hc, ih]

/-! ## Predicates -/

/-- The predicates of a table are those of its cells. -/
theorem mem_predicates (t : Table) :
    predicate ∈ t.predicates.toList ↔ ∃ subject object, t.cell? subject predicate = some object := by
  rw [predicates, OrderedSet.mem_ofList, List.mem_flatMap]
  constructor
  · rintro ⟨r, hr, hmem⟩
    rcases List.mem_map.1 hr with ⟨⟨subject, r'⟩, hpair, rfl⟩
    have hrow : t.row subject = r' := by
      rw [row, OrderedMap.get?, Assoc.get?_of_mem t.nodup_keys hpair]
      rfl
    cases hobject : OrderedMap.get? r' predicate with
    | none => exact absurd hmem (OrderedMap.get?_eq_none_iff.1 hobject)
    | some object =>
        refine ⟨subject, object, ?_⟩
        rw [cell?, hrow, hobject]
  · rintro ⟨subject, object, hcell⟩
    rw [cell?, row] at hcell
    cases hrow : t.get? subject with
    | none =>
        rw [hrow] at hcell
        cases hcell
    | some r =>
        rw [hrow, Option.getD_some] at hcell
        refine ⟨r, List.mem_map.2 ⟨(subject, r), OrderedMap.mem_of_get? hrow, rfl⟩, ?_⟩
        by_contra hmem
        rw [OrderedMap.get?_eq_none_iff.2 hmem] at hcell
        cases hcell

end Table
end Recast
