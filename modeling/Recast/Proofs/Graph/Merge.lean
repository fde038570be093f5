import Recast.Graph.Model
import Recast.Proofs.OrderedSet

/-!
# Merge — models put together

A model is known by its records in their order, the statements of each record, its class and its
schema: `Model.ext_view`.  Merging a second model into a first one appends the records that are new
and unites the statements of the others, record by record: `recordUris_merge` and
`statementsFor?_merge`.

From this it follows that whatever is added to the second model may as well be added after the
merge: `merge_addRecord`, `merge_addStatement`, `merge_addPath`, `merge_nameClass`.

The models of several documents are merged one after the other.  How they are grouped does not
matter, a model without records adds nothing, and neither does a model that has been merged before:
records, statements and paths keep the places at which they were first seen.  The order of two
models only decides these places and whose class is kept: `merge_laws`, proved on the view of a merge,
record by record.
-/

namespace Recast
namespace Model

/-- Models that cannot be told apart by what they tell are the same. -/
theorem ext_view {m n : Model} (huris : m.recordUris = n.recordUris)
    (hstatements : ∀ record, m.statementsFor? record = n.statementsFor? record)
    (hclass : m.recordClass = n.recordClass) (hschema : m.schema = n.schema) : m = n := by
  have hrecords : m.records = n.records := OrderedMap.ext_get? huris hstatements
  cases m
  cases n
  simp only at hrecords hclass hschema
  rw [hrecords, hclass, hschema]

/-! ## One record more -/

theorem statementsOf_eq (m : Model) (record : String) :
    m.statementsOf record = (m.statementsFor? record).getD .empty := rfl

/-- A record that is added goes behind all others, unless it is there. -/
theorem recordUris_addStatements (m : Model) (record : String) (ss : OrderedSet Statement) :
    (m.addStatements record ss).recordUris =
      if record ∈ m.recordUris then m.recordUris else m.recordUris ++ [record] :=
  OrderedMap.keys_put m.records record _

/-- Statements are added to one record. -/
theorem statementsFor?_addStatements (m : Model) (record k : String)
    (ss : OrderedSet Statement) :
    (m.addStatements record ss).statementsFor? k =
      if record = k then some ((m.statementsOf record).union ss) else m.statementsFor? k :=
  OrderedMap.get?_put m.records record k _

/-! ## The view of a merge -/

def grow (m : Model) (rs : List (String × OrderedSet Statement)) : Model :=
  rs.foldl (fun acc r => acc.addStatements r.1 r.2) m

/-- New records go behind those that are there, in their order. -/
theorem recordUris_grow (m : Model) {rs : List (String × OrderedSet Statement)}
    (h : (Assoc.keys rs).Nodup) :
    (m.grow rs).recordUris =
      m.recordUris ++ (Assoc.keys rs).filter fun k => k ∉ m.recordUris := by
  induction rs generalizing m with
  | nil => simp [grow]
  | cons r rest ih =>
      obtain ⟨hnot, hnodup⟩ := List.nodup_cons.1 h
      have hstep : m.grow (r :: rest) = (m.addStatements r.1 r.2).grow rest := rfl
      rw [hstep, ih _ hnodup, recordUris_addStatements, Assoc.keys_cons, List.filter_cons]
      -- a record that is there is not added again; a new one is none of those still to come
      by_cases hr : r.1 ∈ m.recordUris
      · simp [hr]
      · have hsame : (Assoc.keys rest).filter (fun k => k ∉ m.recordUris ++ [r.1]) =
            (Assoc.keys rest).filter fun k => k ∉ m.recordUris := by
          refine List.filter_congr fun k hk => ?_
          have hne : k ≠ r.1 := fun e => hnot (e ▸ hk)
          simp [hne]
        rw [if_neg hr, hsame]
        simp [hr]

/-- Every record has the statements of both, its own ones first. -/
theorem statementsFor?_grow (m : Model) {rs : List (String × OrderedSet Statement)}
    (h : (Assoc.keys rs).Nodup) (k : String) :
    (m.grow rs).statementsFor? k =
      match Assoc.get? k rs with
      | some ss => some ((m.statementsOf k).union ss)
      | none => m.statementsFor? k := by
  induction rs generalizing m with
  | nil => rfl
  | cons r rest ih =>
      obtain ⟨hnot, hnodup⟩ := List.nodup_cons.1 h
      have hstep : m.grow (r :: rest) = (m.addStatements r.1 r.2).grow rest := rfl
      rw [hstep, ih _ hnodup, Assoc.get?]
      by_cases hk : r.1 = k
      · have hnone : Assoc.get? k rest = none := Assoc.get?_eq_none_iff.2 (hk ▸ hnot)
        rw [hnone, if_pos hk]
        simp only [statementsFor?_addStatements, hk, if_true]
      · rw [if_neg hk]
        simp only [statementsOf_eq, statementsFor?_addStatements, hk, if_false]

/-- Merging puts new records behind those that are there. -/
theorem recordUris_merge (m n : Model) :
    (m.merge n).recordUris = m.recordUris ++ n.recordUris.filter fun k => k ∉ m.recordUris :=
  recordUris_grow m n.records.nodup_keys

/-- Merging unites the statements of each record. -/
theorem statementsFor?_merge (m n : Model) (k : String) :
    (m.merge n).statementsFor? k =
      match n.statementsFor? k with
      | some ss => some ((m.statementsOf k).union ss)
      | none => m.statementsFor? k :=
  statementsFor?_grow m n.records.nodup_keys k

theorem statementsOf_merge (m n : Model) (k : String) :
    (m.merge n).statementsOf k = (m.statementsOf k).union (n.statementsOf k) := by
  rw [statementsOf_eq, statementsFor?_merge, statementsOf_eq n]
  cases n.statementsFor? k with
  | some ss => rfl
  | none => rfl

/-! ## Adding after a merge -/

/-- Merging the empty model into a model changes nothing. -/
theorem merge_empty (m : Model) : m.merge empty = m := by
  refine ext_view ?_ (fun k => ?_) ?_ rfl
  · rw [recordUris_merge]
    simp [recordUris, empty, OrderedMap.keys, OrderedMap.empty]
  · rw [statementsFor?_merge]
    rfl
  · cases m
    simp [merge, empty]

theorem merge_addStatements (m n : Model) (record : String) (ss : OrderedSet Statement)
    (hss : ∀ s t : OrderedSet Statement, s.union (t.union ss) = (s.union t).union ss) :
    m.merge (n.addStatements record ss) = (m.merge n).addStatements record ss := by
  refine ext_view ?_ (fun k => ?_) rfl rfl
  · rw [recordUris_merge, recordUris_addStatements, recordUris_addStatements, recordUris_merge]
    by_cases hn : record ∈ n.recordUris <;> by_cases hm : record ∈ m.recordUris <;>
      simp [hn, hm]
  · rw [statementsFor?_merge, statementsFor?_addStatements, statementsFor?_addStatements]
    by_cases hk : record = k
    · simp only [hk, if_true, statementsOf_merge, hss]
    · simp only [hk, if_false, statementsFor?_merge]

theorem merge_addRecord (m n : Model) (record : String) :
    m.merge (n.addRecord record) = (m.merge n).addRecord record :=
  merge_addStatements m n record .empty fun _ _ => rfl

/-- One more statement of the second model is one more of the merged one. -/
theorem merge_addStatement (m n : Model) (record : String) (s : Statement) :
    m.merge (n.addStatement record s) = (m.merge n).addStatement record s := by
  have hunion : ∀ t u : OrderedSet Statement, t.union (u.insert s) = (t.union u).insert s :=
    fun t u => OrderedSet.union_insert t u s
  exact merge_addStatements m n record (OrderedSet.empty.insert s) hunion

/-- One more path of the second model is one more of the merged one. -/
theorem merge_addPath (m n : Model) (p : AttributePath) :
    m.merge (n.addPath p) = (m.merge n).addPath p :=
  ext_view rfl (fun _ => rfl) rfl (OrderedSet.union_insert m.schema n.schema p)

/-- Name the class of the records, unless it has been named before. -/
def nameClass (m : Model) (uri : String) : Model :=
  if m.recordClass.isNone then m.setRecordClass uri else m

/-- A class that the second model names last is named last in the merged one. -/
theorem merge_nameClass (m n : Model) (uri : String) :
    m.merge (n.nameClass uri) = (m.merge n).nameClass uri := by
  have hclass : (m.merge n).recordClass = m.recordClass.or n.recordClass := rfl
  refine ext_view ?_ (fun k => ?_) ?_ ?_ <;> unfold nameClass <;> rw [hclass] <;>
    cases hm : m.recordClass <;> cases hn : n.recordClass <;>
    simp [merge, setRecordClass, recordUris, statementsFor?, hm, hn]

/-! ## Statements and paths that are added -/

section Added

variable (m : Model) (record : String)

/-- A statement is added to one record. -/
theorem statementsOf_addStatement (st : Statement) (k : String) :
    (m.addStatement record st).statementsOf k =
      if record = k then (m.statementsOf k).insert st else m.statementsOf k := by
  have hget : (m.addStatement record st).statementsFor? k =
      if record = k then some ((m.statementsOf record).insert st) else m.statementsFor? k :=
    OrderedMap.get?_put m.records record k _
  rw [statementsOf_eq, hget]
  by_cases hk : record = k
  · simp [hk]
  · simp [hk, statementsOf_eq]

theorem statementsOf_addStatement_self (st : Statement) :
    (m.addStatement record st).statementsOf record = (m.statementsOf record).insert st :=
  (statementsOf_addStatement m record st record).trans (if_pos rfl)

theorem statementsOf_addStatement_of_ne (st : Statement) {k : String} (hk : record ≠ k) :
    (m.addStatement record st).statementsOf k = m.statementsOf k :=
  (statementsOf_addStatement m record st k).trans (if_neg hk)

/-- Adding a statement takes none away. -/
theorem subset_addStatement (st : Statement) (k : String) :
    (m.statementsOf k).toList ⊆ ((m.addStatement record st).statementsOf k).toList := by
  intro st' hst'
  rw [statementsOf_addStatement]
  split
  · exact OrderedSet.mem_insert.2 (.inl hst')
  · exact hst'

variable {m record} in
/-- Adding a statement adds no other one. -/
theorem mem_addStatement {st st' : Statement} {k : String}
    (h : st' ∈ ((m.addStatement record st).statementsOf k).toList) :
    st' ∈ (m.statementsOf k).toList ∨ (record = k ∧ st' = st) := by
  rw [statementsOf_addStatement] at h
  split at h
  · rename_i hk
    rcases OrderedSet.mem_insert.1 h with hold | hnew
    · exact .inl hold
    · exact .inr ⟨hk, hnew⟩
  · exact .inl h

@[simp] theorem statementsOf_addRecord (k : String) :
    (m.addRecord record).statementsOf k = m.statementsOf k := by
  have hget : (m.addRecord record).statementsFor? k =
      if record = k then some (m.statementsOf record) else m.statementsFor? k :=
    OrderedMap.get?_put m.records record k _
  rw [statementsOf_eq, hget]
  by_cases hk : record = k
  · simp [hk]
  · simp [hk, statementsOf_eq]

@[simp] theorem statementsOf_addPath (p : AttributePath) :
    (m.addPath p).statementsOf record = m.statementsOf record := rfl

@[simp] theorem statementsOf_nameClass (c : String) :
    (m.nameClass c).statementsOf record = m.statementsOf record := by
  unfold nameClass
  split <;> rfl

@[simp] theorem schema_nameClass (c : String) : (m.nameClass c).schema = m.schema := by
  unfold nameClass
  split <;> rfl

end Added

/-! ## Models put together in any grouping -/

/-- The same records with the same statements, and the same paths, in whatever order. -/
structure SameContent (m n : Model) : Prop where
  records : m.recordUris.Perm n.recordUris
  statements : ∀ record,
    (m.statementsOf record).toList.Perm (n.statementsOf record).toList
  schema : m.schema.toList.Perm n.schema.toList

theorem nodup_recordUris (m : Model) : m.recordUris.Nodup :=
  m.records.nodup_keys

/-- A merged model has the records of both. -/
theorem mem_recordUris_merge {m n : Model} {record : String} :
    record ∈ (m.merge n).recordUris ↔ record ∈ m.recordUris ∨ record ∈ n.recordUris := by
  by_cases h : record ∈ m.recordUris <;> simp [recordUris_merge, h]

/-- Merging into the empty model gives what is merged. -/
theorem empty_merge (m : Model) : empty.merge m = m := by
  have hnone : ∀ record, empty.statementsFor? record = none := fun _ => rfl
  refine ext_view ?_ (fun record => ?_) ?_ (OrderedSet.empty_union m.schema)
  · rw [recordUris_merge]
    exact List.filter_eq_self.2 fun _ _ => rfl
  · rw [statementsFor?_merge]
    cases h : m.statementsFor? record with
    | none => exact hnone record
    | some ss => exact congrArg some (OrderedSet.empty_union ss)
  · cases h : m.recordClass with
    | none => simp [merge, empty, h]
    | some uri => simp [merge, empty, h]

/-- Merging a model with itself changes nothing. -/
theorem merge_self (m : Model) : m.merge m = m := by
  refine ext_view ?_ (fun record => ?_) ?_ (OrderedSet.union_self m.schema)
  · have hold : m.recordUris.filter (fun k => k ∉ m.recordUris) = [] := by
      rw [List.filter_eq_nil_iff]
      intro k hk
      simp [hk]
    rw [recordUris_merge, hold, List.append_nil]
  · rw [statementsFor?_merge, statementsOf_eq]
    cases h : m.statementsFor? record with
    | none => rfl
    | some ss => exact congrArg some (OrderedSet.union_self ss)
  · exact Option.or_self

/-- Models can be merged in any grouping, all orders included. -/
theorem merge_assoc (a b c : Model) : (a.merge b).merge c = a.merge (b.merge c) := by
  refine ext_view ?_ (fun record => ?_) ?_ (OrderedSet.union_assoc a.schema b.schema c.schema)
  · -- a record of `c` is new behind `a` and `b` if it is new behind `b`, and what is left of it
    -- is new behind `a`
    have hnew : c.recordUris.filter (fun k => k ∉ (a.merge b).recordUris) =
        (c.recordUris.filter fun k => k ∉ b.recordUris).filter fun k => k ∉ a.recordUris := by
      rw [List.filter_filter]
      refine List.filter_congr fun k _ => ?_
      simp [mem_recordUris_merge]
    calc
      ((a.merge b).merge c).recordUris
          = (a.recordUris ++ b.recordUris.filter fun k => k ∉ a.recordUris) ++
              (c.recordUris.filter fun k => k ∉ b.recordUris).filter fun k => k ∉ a.recordUris := by
            rw [recordUris_merge, hnew, recordUris_merge]
      _ = a.recordUris ++ (b.merge c).recordUris.filter fun k => k ∉ a.recordUris := by
            rw [recordUris_merge b c, List.filter_append, List.append_assoc]
      _ = (a.merge (b.merge c)).recordUris := (recordUris_merge a (b.merge c)).symm
  · rw [statementsFor?_merge, statementsFor?_merge, statementsFor?_merge, statementsOf_merge,
      statementsFor?_merge]
    cases hc : c.statementsFor? record with
    | none => rfl
    | some ss => exact congrArg some (OrderedSet.union_assoc _ _ ss)
  · exact Option.or_assoc

/-- Whichever of two models comes first, they have the same content together. -/
theorem sameContent_merge (a b : Model) : SameContent (a.merge b) (b.merge a) where
  records := by
    rw [List.perm_ext_iff_of_nodup (nodup_recordUris _) (nodup_recordUris _)]
    intro record
    rw [mem_recordUris_merge, mem_recordUris_merge, or_comm]
  statements := by
    intro record
    rw [statementsOf_merge, statementsOf_merge]
    exact OrderedSet.perm_union _ _
  schema := OrderedSet.perm_union a.schema b.schema

/-- Models form a monoid under merging: grouping changes nothing, neither does the model without
records on either side, and a model merged into itself stays as it is, all with every order and the
class kept.  Merged the other way round, models have the same content. -/
theorem merge_laws (a b c : Model) :
    (a.merge b).merge c = a.merge (b.merge c) ∧ empty.merge a = a ∧ a.merge empty = a ∧
      a.merge a = a ∧ SameContent (a.merge b) (b.merge a) :=
  ⟨merge_assoc a b c, empty_merge a, merge_empty a, merge_self a, sameContent_merge a b⟩

end Model
end Recast
