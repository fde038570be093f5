import Recast.Proofs.Store.History
import Recast.Store.Sink

/-!
# Stored — what becomes of the models that a sink takes

A sink puts the statements of a model into its table, one after the other, so for each subject and
predicate the last statement counts.  Writing the model again changes nothing, and models that have no
subject with the same predicate may be written in either order: `Sink.stores_model`.
-/

namespace Recast

namespace Table

variable {cs ds : List Cell} {t u : Table} {subject predicate : String}

/-! ## Last writes -/

/-- There is no last object for a cell that no write sets. -/
theorem lastObject?_eq_none_iff :
    lastObject? cs subject predicate = none ↔
      ∀ c ∈ cs, ¬ (c.subject = subject ∧ c.predicate = predicate) := by
  unfold lastObject?
  rw [Option.map_eq_none_iff, List.getLast?_eq_none_iff, List.filter_eq_nil_iff]
  simp only [decide_eq_true_iff]

theorem lastObject?_ne_none {c : Cell} (h : c ∈ cs) :
    lastObject? cs c.subject c.predicate ≠ none := by
  rw [ne_eq, lastObject?_eq_none_iff]
  exact fun hnone => hnone c h ⟨rfl, rfl⟩

/-- A write to a cell counts if none of those behind it is to the same cell. -/
theorem lastObject?_split {before after : List Cell} {c : Cell}
    (h : ∀ d ∈ after, ¬ (d.subject = c.subject ∧ d.predicate = c.predicate)) :
    lastObject? (before ++ c :: after) c.subject c.predicate = some c.object := by
  have hafter : after.filter (fun d => d.subject = c.subject ∧ d.predicate = c.predicate) = [] := by
    refine List.filter_eq_nil_iff.2 fun d hd => ?_
    simpa using h d hd
  have hcells : (before ++ c :: after).filter
      (fun d => d.subject = c.subject ∧ d.predicate = c.predicate) =
        before.filter (fun d => d.subject = c.subject ∧ d.predicate = c.predicate) ++ [c] := by
    rw [List.filter_append, List.filter_cons_of_pos (by simp), hafter]
  rw [lastObject?, hcells, List.getLast?_concat]
  rfl

/-- The predicates of a table after writes are those it had and those that are written. -/
theorem mem_predicates_writeAll :
    predicate ∈ (t.writeAll cs).predicates.toList ↔
      predicate ∈ t.predicates.toList ∨ ∃ c ∈ cs, c.predicate = predicate := by
  simp only [mem_predicates, cell?_writeAll_onto]
  constructor
  · rintro ⟨subject, object, hcell⟩
    by_cases hwritten : ∃ c ∈ cs, c.predicate = predicate
    · exact .inr hwritten
    · rw [lastObject?_eq_none_iff.2 fun c hc h => hwritten ⟨c, hc, h.2⟩, Option.none_or] at hcell
      exact .inl ⟨subject, object, hcell⟩
  · rintro (⟨subject, object, hcell⟩ | ⟨c, hc, rfl⟩)
    · exact ⟨subject, _, by rw [hcell, Option.or_some]⟩
    · obtain ⟨o, ho⟩ := Option.ne_none_iff_exists'.1 (lastObject?_ne_none hc)
      exact ⟨c.subject, o, by rw [ho, Option.some_or]⟩

/-- Writes to different cells may change places. -/
theorem cell?_writeAll_comm
    (h : ∀ c ∈ cs, ∀ d ∈ ds, ¬ (c.subject = d.subject ∧ c.predicate = d.predicate)) :
    ((t.writeAll cs).writeAll ds).cell? subject predicate =
      ((t.writeAll ds).writeAll cs).cell? subject predicate := by
  simp only [cell?_writeAll_onto]
  by_cases hcs : ∀ c ∈ cs, ¬ (c.subject = subject ∧ c.predicate = predicate)
  · rw [lastObject?_eq_none_iff.2 hcs, Option.none_or, Option.none_or]
  · obtain ⟨c, hc, rfl, rfl⟩ : ∃ c ∈ cs, c.subject = subject ∧ c.predicate = predicate := by
      simpa using hcs
    have hds : ∀ d ∈ ds, ¬ (d.subject = c.subject ∧ d.predicate = c.predicate) :=
      fun d hd hsame => h c hc d hd ⟨hsame.1.symm, hsame.2.symm⟩
    rw [lastObject?_eq_none_iff.2 hds, Option.none_or, Option.none_or]

/-! ## Writing again -/

/-- Subjects, the predicates of each and the cells are all there is to a table. -/
theorem ext_cells (hkeys : t.keys = u.keys)
    (hrows : ∀ subject, (t.row subject).keys = (u.row subject).keys)
    (hcells : ∀ subject predicate, t.cell? subject predicate = u.cell? subject predicate) :
    t = u := by
  refine OrderedMap.ext_get? hkeys fun subject => ?_
  have hrow : t.row subject = u.row subject :=
    OrderedMap.ext_get? (hrows subject) (hcells subject)
  unfold row at hrow
  by_cases hmem : subject ∈ t.keys
  · have hget : ∀ v : Table, subject ∈ v.keys → ∃ r, v.get? subject = some r := fun v hv =>
      Option.ne_none_iff_exists'.1 (mt OrderedMap.get?_eq_none_iff.1 (not_not.2 hv))
    obtain ⟨r, hr⟩ := hget t hmem
    obtain ⟨r', hr'⟩ := hget u (hkeys ▸ hmem)
    rw [hr, hr', Option.getD_some, Option.getD_some] at hrow
    rw [hr, hr', hrow]
  · rw [OrderedMap.get?_eq_none_iff.2 hmem, OrderedMap.get?_eq_none_iff.2 (hkeys ▸ hmem)]

/-- Writing to a cell that is there makes no row and no cell. -/
theorem keys_write_of_cell {c : Cell} (h : t.cell? c.subject c.predicate ≠ none) :
    (t.write c).keys = t.keys ∧ ∀ subject, ((t.write c).row subject).keys = (t.row subject).keys := by
  -- the cell is there, so its row and its predicate are
  have hpredicate : c.predicate ∈ (t.row c.subject).keys := by
    by_contra hmem
    exact h (OrderedMap.get?_eq_none_iff.2 hmem)
  have hsubject : c.subject ∈ t.keys := by
    by_contra hmem
    rw [row, OrderedMap.get?_eq_none_iff.2 hmem] at hpredicate
    cases hpredicate
  constructor
  · rw [write, OrderedMap.keys_put, if_pos hsubject]
  · intro subject
    rw [row_write]
    by_cases hc : c.subject = subject
    · rw [if_pos hc, OrderedMap.keys_put, if_pos hpredicate, hc]
    · rw [if_neg hc]

/-- Writing cells that are there already changes neither the rows nor the predicates in them. -/
theorem keys_writeAll_of_cells (h : ∀ c ∈ cs, t.cell? c.subject c.predicate ≠ none) :
    (t.writeAll cs).keys = t.keys ∧
      ∀ subject, ((t.writeAll cs).row subject).keys = (t.row subject).keys := by
  induction cs generalizing t with
  | nil => exact ⟨rfl, fun _ => rfl⟩
  | cons c rest ih =>
      obtain ⟨hkeys, hrows⟩ := keys_write_of_cell (h c List.mem_cons_self)
      -- the cells that were there are there after the first write
      have hrest : ∀ d ∈ rest, (t.write c).cell? d.subject d.predicate ≠ none := by
        intro d hd
        rw [cell?_write]
        split
        · exact Option.some_ne_none _
        · exact h d (List.mem_cons_of_mem _ hd)
      obtain ⟨hkeys', hrows'⟩ := ih hrest
      exact ⟨hkeys'.trans hkeys, fun subject => (hrows' subject).trans (hrows subject)⟩

/-- What is written a second time is there already. -/
theorem writeAll_writeAll : (t.writeAll cs).writeAll cs = t.writeAll cs := by
  have hcells : ∀ c ∈ cs, (t.writeAll cs).cell? c.subject c.predicate ≠ none := by
    intro c hc hnone
    rw [cell?_writeAll_onto, Option.or_eq_none_iff] at hnone
    exact lastObject?_ne_none hc hnone.1
  obtain ⟨hkeys, hrows⟩ := keys_writeAll_of_cells hcells
  refine ext_cells hkeys hrows fun subject predicate => ?_
  calc ((t.writeAll cs).writeAll cs).cell? subject predicate
      = (lastObject? cs subject predicate).or
          ((lastObject? cs subject predicate).or (t.cell? subject predicate)) := by
            rw [cell?_writeAll_onto, cell?_writeAll_onto]
    _ = (t.writeAll cs).cell? subject predicate := by
            rw [← Option.or_assoc, Option.or_self, cell?_writeAll_onto]

end Table

namespace Store

variable {db : Store} {k l : StoreKey} {m n : Model} {subject predicate : String}

/-! ## Models in tables -/

def cellsOf (m : Model) : List Cell :=
  m.statements.map cellOf

/-- Storing a model writes its cells to one table and leaves all others as they are. -/
theorem get_putModel :
    (db.putModel k m).2.get l = if k = l then (db.get k).writeAll (cellsOf m) else db.get l := by
  have hget : (db.putModel k m).2.get? l =
      if k = l then some ((db.get k).writeAll (cellsOf m)) else db.get? l :=
    OrderedMap.get?_put db.tables k l _
  unfold get
  rw [hget]
  split <;> rfl

theorem cell_congr {db' : Store}
    (h : (db.get k).cell? subject predicate = (db'.get k).cell? subject predicate) :
    db.cell k subject predicate = db'.cell k subject predicate := by
  unfold cell
  rw [h]

/-- The last statement of a model about a cell counts. -/
theorem cell_putModel_last {before after : List Statement} {st : Statement}
    (hsplit : m.statements = before ++ st :: after)
    (hafter : ∀ later ∈ after,
      ¬ (later.subject = st.subject ∧ later.predicate = st.predicate)) :
    (db.putModel k m).2.cell k st.subject st.predicate = .existing st.object.value := by
  have hcells : cellsOf m = before.map cellOf ++ cellOf st :: after.map cellOf := by
    rw [cellsOf, hsplit, List.map_append, List.map_cons]
  have hbehind : ∀ d ∈ after.map cellOf,
      ¬ (d.subject = (cellOf st).subject ∧ d.predicate = (cellOf st).predicate) := by
    intro d hd
    obtain ⟨later, hlater, rfl⟩ := List.mem_map.1 hd
    exact hafter later hlater
  -- no later cell overwrites this one
  have hlast : Table.lastObject? (cellsOf m) st.subject st.predicate = some st.object.value := by
    rw [hcells]
    exact Table.lastObject?_split hbehind
  rw [cell_eq_existing]
  calc ((db.putModel k m).2.get k).cell? st.subject st.predicate
      = ((db.get k).writeAll (cellsOf m)).cell? st.subject st.predicate := by
        rw [get_putModel, if_pos rfl]
    _ = some st.object.value := by rw [Table.cell?_writeAll_onto, hlast, Option.some_or]

/-- A cell that the model has no statement for stays as it is. -/
theorem cell_putModel_other
    (h : l = k → ∀ st ∈ m.statements, ¬ (st.subject = subject ∧ st.predicate = predicate)) :
    (db.putModel k m).2.cell l subject predicate = db.cell l subject predicate := by
  apply cell_congr
  rw [get_putModel]
  by_cases hkey : k = l
  · subst hkey
    have hnone : Table.lastObject? (cellsOf m) subject predicate = none :=
      Table.lastObject?_eq_none_iff.2 (List.forall_mem_map.2 (h rfl))
    rw [if_pos rfl, Table.cell?_writeAll_onto, hnone, Option.none_or]
  · rw [if_neg hkey]

/-- The predicates of a model are those of its cells. -/
theorem mem_predicates_iff :
    predicate ∈ m.predicates ↔ ∃ c ∈ cellsOf m, c.predicate = predicate := by
  rw [Model.predicates, OrderedSet.mem_ofList, cellsOf]
  simp [cellOf]

/-- Storing a model adds its predicates to the schema. -/
theorem mem_schema_putModel :
    predicate ∈ (db.putModel k m).2.schema k ↔
      predicate ∈ db.schema k ∨ predicate ∈ m.predicates := by
  have htable : (db.putModel k m).2.get k = (db.get k).writeAll (cellsOf m) := by
    rw [get_putModel, if_pos rfl]
  rw [mem_predicates_iff, OrderedSet.mem_iff, OrderedSet.mem_iff, schema, schema, htable,
    Table.mem_predicates_writeAll]

/-- What is put a second time is there already. -/
theorem putModel_putModel : ((db.putModel k m).2.putModel k m).2 = (db.putModel k m).2 := by
  have hget : (db.putModel k m).2.get k = (db.get k).writeAll (cellsOf m) := by
    rw [get_putModel, if_pos rfl]
  have htwice : ((db.putModel k m).2.putModel k m).2 =
      ⟨(db.putModel k m).2.tables.put k (((db.putModel k m).2.get k).writeAll (cellsOf m))⟩ := rfl
  rw [htwice, hget, Table.writeAll_writeAll]
  exact congrArg Store.mk (OrderedMap.put_put db.tables k _ _)

/-- Models that have no cell in common may be put in either order. -/
theorem cell_putModel_comm
    (h : ∀ st ∈ m.statements, ∀ st' ∈ n.statements,
      ¬ (st.subject = st'.subject ∧ st.predicate = st'.predicate)) :
    ((db.putModel k m).2.putModel k n).2.cell l subject predicate =
      ((db.putModel k n).2.putModel k m).2.cell l subject predicate := by
  have hapart : ∀ c ∈ cellsOf m, ∀ d ∈ cellsOf n,
      ¬ (c.subject = d.subject ∧ c.predicate = d.predicate) :=
    List.forall_mem_map.2 fun st hst => List.forall_mem_map.2 (h st hst)
  apply cell_congr
  simp only [get_putModel]
  by_cases hkey : k = l
  · simp only [if_pos hkey, if_true]
    exact Table.cell?_writeAll_comm hapart
  · simp only [if_neg hkey]

end Store

namespace Sink

/-- A sink takes every model.  Then each cell that the model has a statement for holds the object of the
last one, all other cells are what they were, and the predicates of the table are those it had and those
of the model.  The same model once more changes nothing, and with another one that has no cell in common
it makes no difference which of them comes first. -/
theorem stores_model (db : Store) (k : StoreKey) (m n : Model) :
    ∃ db', (Sink.table k).write m db = .ok db' ∧
      (∀ before st after, m.statements = before ++ st :: after →
        (∀ later ∈ after, ¬ (later.subject = st.subject ∧ later.predicate = st.predicate)) →
        db'.cell k st.subject st.predicate = .existing st.object.value) ∧
      (∀ l subject predicate,
        (l = k → ∀ st ∈ m.statements, ¬ (st.subject = subject ∧ st.predicate = predicate)) →
        db'.cell l subject predicate = db.cell l subject predicate) ∧
      (∀ predicate, predicate ∈ db'.schema k ↔
        predicate ∈ db.schema k ∨ predicate ∈ m.predicates) ∧
      (Sink.table k).write m db' = .ok db' ∧
      ((∀ st ∈ m.statements, ∀ st' ∈ n.statements,
          ¬ (st.subject = st'.subject ∧ st.predicate = st'.predicate)) →
        ∃ one other, (Sink.table k).write n db' = .ok one ∧
          ((Sink.table k).write n db >>= (Sink.table k).write m) = .ok other ∧
          ∀ l subject predicate, one.cell l subject predicate = other.cell l subject predicate) := by
  refine ⟨(db.putModel k m).2, rfl, ?last, ?other, ?schema, ?again, ?order⟩
  case last =>
    intro before st after hsplit hafter
    exact Store.cell_putModel_last hsplit hafter
  case other =>
    intro l subject predicate h
    exact Store.cell_putModel_other h
  case schema =>
    intro predicate
    exact Store.mem_schema_putModel
  case again => exact congrArg Except.ok Store.putModel_putModel
  case order =>
    intro h
    exact ⟨_, _, rfl, rfl, fun l subject predicate => Store.cell_putModel_comm h⟩

/-- A table with a cell that `Sink.renewing` writes, and one that it does not. -/
def furnished : Store :=
  (Store.empty.putAll ⟨"r", "c"⟩ [⟨"item", "title", "old"⟩, ⟨"other", "title", "kept"⟩]).2

def renewing : Model :=
  ⟨.ofList [("item", ⟨[⟨"item", "title", .literal "first", by decide, by decide, by decide⟩,
    ⟨"item", "title", .resource "last", by decide, by decide, by decide⟩,
    ⟨"item", "note", .literal "new", by decide, by decide, by decide⟩], by decide⟩)], none, .empty⟩

/-- A statement about the subject of `Sink.renewing` under another predicate. -/
def adding : Model :=
  ⟨.ofList [("item", ⟨[⟨"item", "mark", .literal "extra", by decide, by decide, by decide⟩],
    by decide⟩)], none, .empty⟩

theorem stores_model_renewing :
    (∀ st ∈ renewing.statements, ∀ st' ∈ adding.statements,
      ¬ (st.subject = st'.subject ∧ st.predicate = st'.predicate)) ∧
    ∃ db', (Sink.table ⟨"r", "c"⟩).write renewing furnished = .ok db' ∧
      db'.cell ⟨"r", "c"⟩ "item" "title" = .existing "last" ∧
      db'.cell ⟨"r", "c"⟩ "other" "title" = .existing "kept" ∧
      "note" ∈ db'.schema ⟨"r", "c"⟩ ∧
      (Sink.table ⟨"r", "c"⟩).write renewing db' = .ok db' ∧
      ∃ one other, (Sink.table ⟨"r", "c"⟩).write adding db' = .ok one ∧
        ((Sink.table ⟨"r", "c"⟩).write adding furnished >>=
          (Sink.table ⟨"r", "c"⟩).write renewing) = .ok other ∧
        ∀ l subject predicate, one.cell l subject predicate = other.cell l subject predicate := by
  have hapart : ∀ st ∈ renewing.statements, ∀ st' ∈ adding.statements,
      ¬ (st.subject = st'.subject ∧ st.predicate = st'.predicate) := by decide +kernel
  obtain ⟨db', hwrite, hlast, hother, hschema, hagain, horder⟩ :=
    stores_model furnished ⟨"r", "c"⟩ renewing adding
  refine ⟨hapart, db', hwrite, ?_, ?_, ?_, hagain, horder hapart⟩
  · exact hlast [renewing.statements[0]] renewing.statements[1] [renewing.statements[2]]
      (by decide +kernel) (by decide +kernel)
  · rw [hother ⟨"r", "c"⟩ "other" "title" fun _ => by decide +kernel]
    decide +kernel
  · exact (hschema "note").2 (.inr (by decide +kernel))

end Sink
end Recast
