import Recast.Proofs.Store.History

/-!
# FirstSeen — in which order a table lists its predicates

A table lists its predicates row by row: the rows as they were begun, and in each of them the
predicates as they were first written there.  A write that puts a new predicate into an earlier row
lists it in front of predicates that only later rows have, though these have been seen before it:
`Store.schema_out_of_order`.  The predicates stand in the order in which they were first written to
the table as long as there are no such writes, and the next one changes that: `Store.schema_order`.

* `Table.firstSeen`, `Table.rowByRow` — the two orders;
* `Table.KeepsOrder` — the writes that make no difference between them.
-/

namespace Recast

namespace Table

variable {cs : List Cell} {c : Cell} {subject : String}

/-- The predicates of writes, each at the place of the first write with it. -/
def firstSeen (cs : List Cell) : OrderedSet String :=
  .ofList (cs.map Cell.predicate)

/-- The predicates of writes row by row, each at its first place. -/
def rowByRow (cs : List Cell) : OrderedSet String :=
  .ofList ((subjectsOf cs).flatMap (predicatesOf cs))

/-- The predicates in the row of a subject and in those in front of it. -/
def upTo (cs : List Cell) (subject : String) : List String :=
  ((subjectsOf cs).takeWhile (· ≠ subject) ++ [subject]).flatMap (predicatesOf cs)

/-- The predicates in the rows behind that of a subject. -/
def beyond (cs : List Cell) (subject : String) : List String :=
  ((subjectsOf cs).dropWhile (· ≠ subject)).tail.flatMap (predicatesOf cs)

/-- After some writes, another one lists its predicate in front of no other one that has been seen
before: it stands in the row of the write or an earlier one already, or it is the first of those that
only later rows have, or these have none of their own. -/
def KeepsOrder (cs : List Cell) (c : Cell) : Prop :=
  c.predicate ∈ upTo cs c.subject ∨
    ∀ p ∈ (beyond cs c.subject).find? fun p => p ∉ upTo cs c.subject, p = c.predicate

instance (cs : List Cell) (c : Cell) : Decidable (KeepsOrder cs c) :=
  inferInstanceAs (Decidable (_ ∨ _))

/-! ## Rows -/

theorem values_eq (t : Table) : t.values = t.keys.map t.row := by
  unfold OrderedMap.values OrderedMap.keys Assoc.keys
  rw [List.map_map]
  refine List.map_congr_left fun p hp => ?_
  have hget : t.get? p.1 = some p.2 := Assoc.get?_of_mem t.nodup_keys hp
  simp [row, hget]

/-- A table lists its predicates row by row. -/
theorem predicates_writeAll : (writeAll .empty cs).predicates = rowByRow cs := by
  unfold predicates rowByRow
  rw [values_eq, List.flatMap_map, keys_writeAll]
  simp only [keys_row_writeAll]

theorem predicatesOf_eq_nil (h : subject ∉ subjectsOf cs) : predicatesOf cs subject = [] := by
  have hnone : cs.filter (fun c => c.subject = subject) = [] := by
    refine List.filter_eq_nil_iff.2 fun c hc hsubject => h ?_
    exact OrderedSet.mem_ofList.2 (List.mem_map.2 ⟨c, hc, of_decide_eq_true hsubject⟩)
  rw [predicatesOf, hnone]
  rfl

/-- The rows of other subjects stay as they are. -/
theorem flatMap_predicatesOf_concat {subjects : List String} (h : c.subject ∉ subjects) :
    subjects.flatMap (predicatesOf (cs ++ [c])) = subjects.flatMap (predicatesOf cs) := by
  refine List.flatMap_congr fun subject hmem => ?_
  have hne : c.subject ≠ subject := by
    rintro rfl
    exact h hmem
  rw [predicatesOf_concat, if_neg hne]

/-- A subject that has been met has its row behind some and in front of others. -/
theorem exists_split (h : subject ∈ subjectsOf cs) :
    ∃ before after, subjectsOf cs = before ++ subject :: after ∧ subject ∉ before ∧
      subject ∉ after ∧
      upTo cs subject = before.flatMap (predicatesOf cs) ++ predicatesOf cs subject ∧
      beyond cs subject = after.flatMap (predicatesOf cs) := by
  obtain ⟨before, after, hsplit, hbefore⟩ := List.eq_append_cons_of_mem h
  have hnodup : (subjectsOf cs).Nodup := (OrderedSet.ofList (cs.map Cell.subject)).nodup
  rw [hsplit] at hnodup
  have hafter : subject ∉ after := (List.nodup_cons.1 (List.nodup_append.1 hnodup).2.1).1
  -- the subject stands where it is first seen, so no other in front is it
  have hall : ∀ s ∈ before, decide (s ≠ subject) = true := by
    intro s hs
    rw [decide_eq_true_iff]
    rintro rfl
    exact hbefore hs
  refine ⟨before, after, hsplit, hbefore, hafter, ?_, ?_⟩
  · rw [upTo, hsplit, List.takeWhile_append_of_pos hall]
    simp
  · rw [beyond, hsplit, List.dropWhile_append_of_pos hall]
    simp

/-- A subject that has not been met has no row, so that all rows stand in front. -/
theorem upTo_of_not_mem (h : subject ∉ subjectsOf cs) :
    upTo cs subject = (subjectsOf cs).flatMap (predicatesOf cs) ∧ beyond cs subject = [] := by
  -- the subject is none of them
  have hall : ∀ s ∈ subjectsOf cs, decide (s ≠ subject) = true := by
    intro s hs
    rw [decide_eq_true_iff]
    rintro rfl
    exact h hs
  have hnone : (subjectsOf cs).dropWhile (fun s => decide (s ≠ subject)) = [] :=
    List.dropWhile_eq_nil_iff.2 hall
  constructor
  · have hfront : (subjectsOf cs).takeWhile (fun s => decide (s ≠ subject)) = subjectsOf cs :=
      List.takeWhile_eq_self_iff.2 hall
    rw [upTo, hfront, List.flatMap_append, List.flatMap_singleton, predicatesOf_eq_nil h,
      List.append_nil]
  · rw [beyond, hnone]
    rfl

/-! ## One write more -/

/-- The predicates row by row are those up to the row of a subject, and then those beyond it. -/
theorem rowByRow_eq (cs : List Cell) (subject : String) :
    rowByRow cs = (OrderedSet.ofList (upTo cs subject)).insertAll (beyond cs subject) := by
  have hlist : (subjectsOf cs).flatMap (predicatesOf cs) = upTo cs subject ++ beyond cs subject := by
    by_cases h : subject ∈ subjectsOf cs
    · obtain ⟨before, after, hsplit, -, -, hupTo, hbeyond⟩ := exists_split h
      rw [hupTo, hbeyond, hsplit, List.flatMap_append, List.flatMap_cons, List.append_assoc]
    · obtain ⟨hupTo, hbeyond⟩ := upTo_of_not_mem h
      rw [hupTo, hbeyond, List.append_nil]
  calc rowByRow cs = .ofList (upTo cs subject ++ beyond cs subject) := by rw [rowByRow, hlist]
    _ = (OrderedSet.ofList (upTo cs subject)).insertAll (beyond cs subject) :=
        OrderedSet.insertAll_append .empty _ _

/-- A write lists its predicate behind those of its row and in front of those that only later rows
have. -/
theorem rowByRow_concat (cs : List Cell) (c : Cell) :
    rowByRow (cs ++ [c]) =
      (OrderedSet.ofList (upTo cs c.subject)).insertAll (c.predicate :: beyond cs c.subject) := by
  have happend : (OrderedSet.ofList (upTo cs c.subject)).insertAll
      (c.predicate :: beyond cs c.subject) =
        .ofList (upTo cs c.subject ++ c.predicate :: beyond cs c.subject) :=
    (OrderedSet.insertAll_append .empty _ _).symm
  by_cases h : c.subject ∈ subjectsOf cs
  · obtain ⟨before, after, hsplit, hbefore, hafter, hupTo, hbeyond⟩ := exists_split h
    have hlist : (subjectsOf (cs ++ [c])).flatMap (predicatesOf (cs ++ [c])) =
        before.flatMap (predicatesOf cs) ++
          (predicatesOf (cs ++ [c]) c.subject ++ after.flatMap (predicatesOf cs)) := by
      rw [subjectsOf_concat, if_pos h, hsplit, List.flatMap_append, List.flatMap_cons,
        flatMap_predicatesOf_concat hbefore, flatMap_predicatesOf_concat hafter]
    by_cases hpredicate : c.predicate ∈ predicatesOf cs c.subject
    · -- the cell is there, and its predicate is listed with those of its row
      have hlisted : c.predicate ∈ (OrderedSet.ofList (upTo cs c.subject)).toList := by
        rw [OrderedSet.mem_ofList, hupTo]
        exact List.mem_append_right _ hpredicate
      have hrow : predicatesOf (cs ++ [c]) c.subject = predicatesOf cs c.subject := by
        rw [predicatesOf_concat, if_pos rfl, if_pos hpredicate]
      have hsame : rowByRow (cs ++ [c]) = rowByRow cs := by
        rw [rowByRow, rowByRow, hlist, hrow, hsplit, List.flatMap_append, List.flatMap_cons]
      calc rowByRow (cs ++ [c])
          = (OrderedSet.ofList (upTo cs c.subject)).insertAll (beyond cs c.subject) := by
            rw [hsame, rowByRow_eq cs c.subject]
        _ = ((OrderedSet.ofList (upTo cs c.subject)).insert c.predicate).insertAll
              (beyond cs c.subject) := by rw [OrderedSet.insert_of_mem hlisted]
        _ = (OrderedSet.ofList (upTo cs c.subject)).insertAll
              (c.predicate :: beyond cs c.subject) := rfl
    · -- the row of the subject gets the predicate as its last one
      have hrow : predicatesOf (cs ++ [c]) c.subject =
          predicatesOf cs c.subject ++ [c.predicate] := by
        rw [predicatesOf_concat, if_pos rfl, if_neg hpredicate]
      calc rowByRow (cs ++ [c])
          = .ofList (before.flatMap (predicatesOf cs) ++
              ((predicatesOf cs c.subject ++ [c.predicate]) ++
                after.flatMap (predicatesOf cs))) := by rw [rowByRow, hlist, hrow]
        _ = .ofList (upTo cs c.subject ++ c.predicate :: beyond cs c.subject) := by
            rw [hupTo, hbeyond]
            simp only [List.append_assoc, List.singleton_append]
        _ = _ := happend.symm
  · -- the subject gets a row of its own, behind all others
    obtain ⟨hupTo, hbeyond⟩ := upTo_of_not_mem h
    have hrow : predicatesOf (cs ++ [c]) c.subject = [c.predicate] := by
      rw [predicatesOf_concat, if_pos rfl, predicatesOf_eq_nil h, if_neg List.not_mem_nil,
        List.nil_append]
    have hlist : (subjectsOf (cs ++ [c])).flatMap (predicatesOf (cs ++ [c])) =
        (subjectsOf cs).flatMap (predicatesOf cs) ++ [c.predicate] := by
      rw [subjectsOf_concat, if_neg h, List.flatMap_append, flatMap_predicatesOf_concat h,
        List.flatMap_singleton, hrow]
    calc rowByRow (cs ++ [c])
        = .ofList ((subjectsOf cs).flatMap (predicatesOf cs) ++ [c.predicate]) := by
          rw [rowByRow, hlist]
      _ = .ofList (upTo cs c.subject ++ c.predicate :: beyond cs c.subject) := by
          rw [hupTo, hbeyond]
      _ = _ := happend.symm

/-- One more write adds its predicate, if it has not been seen before. -/
theorem firstSeen_concat (cs : List Cell) (c : Cell) :
    firstSeen (cs ++ [c]) = (firstSeen cs).insert c.predicate := by
  unfold firstSeen
  rw [List.map_append, List.map_singleton, OrderedSet.ofList_concat]

/-- Where the two orders are one, they are one after another write exactly if it keeps the order. -/
theorem rowByRow_concat_iff (h : rowByRow cs = firstSeen cs) :
    rowByRow (cs ++ [c]) = firstSeen (cs ++ [c]) ↔ KeepsOrder cs c := by
  have hkeeps := OrderedSet.insertAll_insert_iff (.ofList (upTo cs c.subject)) c.predicate
    (beyond cs c.subject)
  simp only [OrderedSet.mem_ofList] at hkeeps
  calc rowByRow (cs ++ [c]) = firstSeen (cs ++ [c])
      ↔ (OrderedSet.ofList (upTo cs c.subject)).insertAll (c.predicate :: beyond cs c.subject) =
          ((OrderedSet.ofList (upTo cs c.subject)).insertAll (beyond cs c.subject)).insert
            c.predicate := by
        rw [firstSeen_concat, ← h, rowByRow_concat, rowByRow_eq cs c.subject]
    _ ↔ KeepsOrder cs c := hkeeps

/-- If all writes keep the order, the two orders are one. -/
theorem rowByRow_of_keepsOrder
    (h : ∀ before c after, cs = before ++ c :: after → KeepsOrder before c) :
    rowByRow cs = firstSeen cs := by
  -- the writes are taken off from the last one, as each is judged by those in front of it
  induction cs using List.reverseRecOn with
  | nil => rfl
  | append_singleton cs c ih =>
      refine (rowByRow_concat_iff (ih ?_)).2 (h cs c [] rfl)
      intro before d after hsplit
      exact h before d (after ++ [c]) (by rw [hsplit, List.append_assoc, List.cons_append])

end Table

namespace Store

/-- A table lists its predicates row by row, by what has been written to it since it was last absent.
This is the order in which they were first written to it if all these writes have kept the order; and
if it is so far, it is after another write exactly if this one keeps the order. -/
theorem schema_order (h : List Operation) (k : StoreKey) :
    (run h).schema k = Table.rowByRow (History.log k h) ∧
      ((∀ before c after, History.log k h = before ++ c :: after → Table.KeepsOrder before c) →
        (run h).schema k = Table.firstSeen (History.log k h)) ∧
      ((run h).schema k = Table.firstSeen (History.log k h) → ∀ c,
        ((run (h ++ [.put k c])).schema k = Table.firstSeen (History.log k (h ++ [.put k c])) ↔
          Table.KeepsOrder (History.log k h) c)) := by
  have hschema : ∀ h, (run h).schema k = Table.rowByRow (History.log k h) := by
    intro h
    rw [schema, get_run, Table.predicates_writeAll]
  refine ⟨hschema h, fun hkeeps => (hschema h).trans (Table.rowByRow_of_keepsOrder hkeeps), ?_⟩
  intro hfirst c
  have hlog : History.log k (h ++ [.put k c]) = History.log k h ++ [c] := by
    rw [History.log_concat k h (by simp)]
    simp [Operation.cellsIn]
  rw [hschema, hlog]
  exact Table.rowByRow_concat_iff ((hschema h).symm.trans hfirst)

/-- Writes that go back to an earlier subject while all predicates are its own or those of the later
one, and a predicate that the last row begins. -/
def returning : List Operation :=
  [.put ⟨"r", "c"⟩ ⟨"s", "q", "gone"⟩, .delete ⟨"r", "c"⟩,
    .putAll ⟨"r", "c"⟩ [⟨"s", "p", "1"⟩, ⟨"t", "p", "2"⟩, ⟨"s", "q", "3"⟩],
    .put ⟨"r", "c"⟩ ⟨"t", "u", "4"⟩]

theorem schema_order_returning :
    (∀ before c after, History.log ⟨"r", "c"⟩ returning = before ++ c :: after →
      Table.KeepsOrder before c) ∧
    (run returning).schema ⟨"r", "c"⟩ = .ofList ["p", "q", "u"] ∧
    (run (returning ++ [.put ⟨"r", "c"⟩ ⟨"s", "u", "5"⟩])).schema ⟨"r", "c"⟩ =
      Table.firstSeen (History.log ⟨"r", "c"⟩
        (returning ++ [.put ⟨"r", "c"⟩ ⟨"s", "u", "5"⟩])) ∧
    (run (returning ++ [.put ⟨"r", "c"⟩ ⟨"s", "v", "5"⟩])).schema ⟨"r", "c"⟩ ≠
      Table.firstSeen (History.log ⟨"r", "c"⟩
        (returning ++ [.put ⟨"r", "c"⟩ ⟨"s", "v", "5"⟩])) := by
  -- the condition is checked place by place
  have hplaces : ∀ i < (History.log ⟨"r", "c"⟩ returning).length,
      ∀ c ∈ (History.log ⟨"r", "c"⟩ returning)[i]?,
        Table.KeepsOrder ((History.log ⟨"r", "c"⟩ returning).take i) c := by decide +kernel
  have hkeeps : ∀ before c after, History.log ⟨"r", "c"⟩ returning = before ++ c :: after →
      Table.KeepsOrder before c := by
    intro before c after hsplit
    rw [hsplit] at hplaces
    simpa using hplaces before.length (by simp) c (by simp)
  obtain ⟨-, hfirst, hnext⟩ := schema_order returning ⟨"r", "c"⟩
  have hschema := hfirst hkeeps
  refine ⟨hkeeps, hschema.trans (by decide +kernel), ?_, ?_⟩
  · exact (hnext hschema ⟨"s", "u", "5"⟩).2 (by decide +kernel)
  · exact fun heq => absurd ((hnext hschema ⟨"s", "v", "5"⟩).1 heq) (by decide +kernel)

/-- Three writes to a table, the last one of a new predicate for the first subject. -/
theorem schema_out_of_order :
    let h : List Operation := [.put ⟨"r", "c"⟩ ⟨"s1", "p", "1"⟩, .put ⟨"r", "c"⟩ ⟨"s2", "q", "2"⟩,
      .put ⟨"r", "c"⟩ ⟨"s1", "r", "3"⟩]
    (run h).schema ⟨"r", "c"⟩ = .ofList ["p", "r", "q"] ∧
      (run h).schema ⟨"r", "c"⟩ ≠ Table.firstSeen (History.log ⟨"r", "c"⟩ h) := by
  decide +kernel

end Store
end Recast
