import Mathlib.Data.Finset.Card
import Mathlib.Data.List.DropRight
import Recast.Proofs.Store.Table
import Recast.Store.Basic

/-!
# History — stores as the outcome of what clients have done

Operations on a store take place one after the other, in whatever order those of several clients
come to stand.  A *history* is the list of them, and it alone says what the store tells: a table is
there if something has been written to it since it was last deleted, and it holds the cells of these
writes.

Main statement: `Store.run_reflects`, every answer of a store is that of its history.
-/

namespace Recast
namespace Store

/-! ## Operations -/

/-- What a client does to a store. -/
inductive Operation where
  | put (key : StoreKey) (cell : Cell)
  | putAll (key : StoreKey) (cells : List Cell)
  | delete (key : StoreKey)
  deriving DecidableEq, Repr

namespace Operation

def key : Operation → StoreKey
  | .put k _ | .putAll k _ | .delete k => k

def perform : Operation → Store → Store
  | .put k c, s => (s.put k c).2
  | .putAll k cs, s => (s.putAll k cs).2
  | .delete k, s => (s.delete k).2

/-- Whether an operation writes to a table, be it no cell. -/
def writesTo (k : StoreKey) : Operation → Bool
  | .put k' _ | .putAll k' _ => k' = k
  | .delete _ => false

/-- The cells that an operation sets in a table. -/
def cellsIn (k : StoreKey) : Operation → List Cell
  | .put k' c => if k' = k then [c] else []
  | .putAll k' cs => if k' = k then cs else []
  | .delete _ => []

end Operation

def run (h : List Operation) : Store :=
  h.foldl (fun s op => op.perform s) empty

/-! ## Histories -/

namespace History

variable (k : StoreKey) (h : List Operation)

/-- What has happened since a table was last deleted. -/
def since : List Operation :=
  h.rtakeWhile fun op => op ≠ .delete k

/-- Something has been written to a table since it was last deleted. -/
def Present : Prop :=
  ∃ op ∈ since k h, op.writesTo k = true

instance : Decidable (Present k h) :=
  inferInstanceAs (Decidable (∃ op ∈ since k h, op.writesTo k = true))

/-- The cells that have been written to a table since it was last deleted. -/
def log : List Cell :=
  (since k h).flatMap (Operation.cellsIn k)

/-- The object last written to a cell since its table was last deleted. -/
def object? (subject predicate : String) : Option String :=
  Table.lastObject? (log k h) subject predicate

end History

/-- What a store tells agrees with a history. -/
structure Reflects (s : Store) (h : List Operation) : Prop where
  /-- A cell holds the object last written to it. -/
  cell : ∀ k subject predicate, s.cell k subject predicate =
    (History.object? k h subject predicate).elim .notFound .existing
  /-- The tables are those written to since they were deleted, and each is listed once. -/
  mem_keys : ∀ k, k ∈ s.keys ↔ History.Present k h
  nodup_keys : s.keys.Nodup
  size : s.size = {k ∈ (h.map Operation.key).toFinset | History.Present k h}.card
  ofResource : ∀ k t, (k.configuration, t) ∈ s.ofResource k.resource ↔
    History.Present k h ∧ t = s.get k
  nodup_ofResource : ∀ resource, ((s.ofResource resource).map Prod.fst).Nodup
  /-- A table holds the cells, with subjects and predicates in the order of their first writes. -/
  get : ∀ k subject predicate,
    (s.get k).cell? subject predicate = (s.cell k subject predicate).value?
  subjects : ∀ k, (s.get k).keys = Table.subjectsOf (History.log k h)
  predicates : ∀ k subject,
    ((s.get k).row subject).keys = Table.predicatesOf (History.log k h) subject
  rows : ∀ k atMost, s.rows k atMost <+: (s.get k).toList ∧
    (s.rows k atMost).map Prod.fst = (Table.subjectsOf (History.log k h)).take atMost
  schema : ∀ k predicate, predicate ∈ s.schema k ↔
    ∃ subject object, s.cell k subject predicate = .existing object
  /-- A write tells whether it has made the table, and otherwise what it replaces. -/
  put : ∀ k c, (s.put k c).1 =
    if History.Present k h then .existing (History.object? k h c.subject c.predicate)
    else .created none
  putAll : ∀ k cs, (s.putAll k cs).1 =
    if History.Present k h then .existing cs.length else .created cs.length
  delete : ∀ k, (s.delete k).1 = decide (History.Present k h)
  /-- Cells set together are set one after the other. -/
  putAll_eq : ∀ k cs, cs ≠ [] → (s.putAll k cs).2 = cs.foldl (fun s c => (s.put k c).2) s

/-! ## One operation more -/

namespace Operation

variable (op : Operation) (s : Store) (k : StoreKey)

/-- What one operation does to each table: it may be gone, or have new cells, or stay as it is. -/
theorem get?_perform :
    (op.perform s).get? k =
      if op = .delete k then none
      else if op.writesTo k then some ((s.get k).writeAll (op.cellsIn k))
      else s.get? k := by
  -- each operation names one table, and leaves the others as they are
  cases op with
  | put k' c =>
      have hget : ((Operation.put k' c).perform s).get? k =
          if k' = k then some ((s.get k').write c) else s.get? k :=
        OrderedMap.get?_put s.tables k' k _
      by_cases hk : k' = k
      · subst hk
        simp [hget, writesTo, cellsIn, Table.writeAll]
      · simp [hget, writesTo, hk]
  | putAll k' cs =>
      have hget : ((Operation.putAll k' cs).perform s).get? k =
          if k' = k then some ((s.get k').writeAll cs) else s.get? k :=
        OrderedMap.get?_put s.tables k' k _
      by_cases hk : k' = k
      · subst hk
        simp [hget, writesTo, cellsIn]
      · simp [hget, writesTo, hk]
  | delete k' =>
      have hget : ((Operation.delete k').perform s).get? k = if k' = k then none else s.get? k :=
        OrderedMap.get?_erase s.tables k' k
      by_cases hk : k' = k
      · subst hk
        simp [hget]
      · simp [hget, writesTo, hk]

theorem cellsIn_of_not_writesTo (h : ¬ op.writesTo k = true) : op.cellsIn k = [] := by
  cases op <;> simp_all [writesTo, cellsIn]

theorem key_of_writesTo (h : op.writesTo k = true) : op.key = k := by
  cases op <;> simp_all [writesTo, key]

end Operation

namespace History

variable (k : StoreKey) (h : List Operation) (op : Operation)

theorem since_delete : since k (h ++ [.delete k]) = [] := by
  unfold since
  exact List.rtakeWhile_concat_neg _ _ _ (by simp)

theorem since_concat {op : Operation} (hop : op ≠ .delete k) :
    since k (h ++ [op]) = since k h ++ [op] := by
  unfold since
  exact List.rtakeWhile_concat_pos _ _ _ (by simpa using hop)

theorem not_present_delete : ¬ Present k (h ++ [.delete k]) := by
  rintro ⟨op, hop, -⟩
  rw [since_delete] at hop
  cases hop

/-- A table is there if it has been before or is written to now, unless it is deleted. -/
theorem present_concat {op : Operation} (hop : op ≠ .delete k) :
    Present k (h ++ [op]) ↔ Present k h ∨ op.writesTo k = true := by
  unfold Present
  rw [since_concat k h hop]
  simp [or_and_right, exists_or]

/-- Any operation but a deletion adds its cells to the log. -/
theorem log_concat {op : Operation} (hop : op ≠ .delete k) :
    log k (h ++ [op]) = log k h ++ op.cellsIn k := by
  unfold log
  rw [since_concat k h hop, List.flatMap_append, List.flatMap_singleton]

/-- The log of a table that is not there is empty. -/
theorem log_of_not_present (habsent : ¬ Present k h) : log k h = [] := by
  apply List.flatMap_eq_nil_iff.2
  intro op hop
  exact op.cellsIn_of_not_writesTo k fun hwrites => habsent ⟨op, hop, hwrites⟩

/-- A table that is there has been the object of an operation. -/
theorem mem_keys_of_present (hpresent : Present k h) : k ∈ h.map Operation.key := by
  rcases hpresent with ⟨op, hop, hwrites⟩
  have hmem : op ∈ h := (List.rtakeWhile_suffix _ _).subset hop
  exact List.mem_map.2 ⟨op, hmem, op.key_of_writesTo k hwrites⟩

end History

/-! ## Whole histories -/

variable (h : List Operation) (k : StoreKey)

/-- A table has the cells of its log, whether it is there or not. -/
theorem get_of_get? {s : Store}
    (hget : s.get? k =
      if History.Present k h then some (Table.writeAll .empty (History.log k h)) else none) :
    s.get k = Table.writeAll .empty (History.log k h) := by
  unfold get
  by_cases hpresent : History.Present k h
  · rw [hget, if_pos hpresent, Option.getD_some]
  · rw [hget, if_neg hpresent, History.log_of_not_present k h hpresent]
    rfl

/-- A table holds what has been written to it since it was last deleted, and is there if anything
has been. -/
theorem get?_run :
    (run h).get? k =
      if History.Present k h then some (Table.writeAll .empty (History.log k h)) else none := by
  induction h using List.reverseRecOn with
  | nil =>
      have habsent : ¬ History.Present k [] := by
        rintro ⟨op, hop, -⟩
        cases hop
      rw [if_neg habsent]
      rfl
  | append_singleton h op ih =>
      have hrun : run (h ++ [op]) = op.perform (run h) := List.foldl_append
      rw [hrun, Operation.get?_perform]
      by_cases hdelete : op = .delete k
      · subst hdelete
        rw [if_pos rfl, if_neg (History.not_present_delete k h)]
      · rw [if_neg hdelete, History.log_concat k h hdelete]
        by_cases hwrites : op.writesTo k = true
        · have hpresent : History.Present k (h ++ [op]) :=
            (History.present_concat k h hdelete).2 (.inr hwrites)
          rw [if_pos hwrites, if_pos hpresent, get_of_get? h k ih]
          simp only [Table.writeAll, List.foldl_append]
        · -- the operation is about another table
          have hsame : History.Present k (h ++ [op]) ↔ History.Present k h := by
            rw [History.present_concat k h hdelete, or_iff_left hwrites]
          rw [if_neg hwrites, ih, op.cellsIn_of_not_writesTo k hwrites, List.append_nil]
          simp only [hsame]

/-- The content of a table is what its log writes. -/
theorem get_run : (run h).get k = Table.writeAll .empty (History.log k h) :=
  get_of_get? h k (get?_run h k)

/-- The tables that a store has are those that are there by its history. -/
theorem isSome_get?_run : ((run h).get? k).isSome = decide (History.Present k h) := by
  rw [get?_run]
  by_cases hpresent : History.Present k h
  · simp [hpresent]
  · simp [hpresent]

/-- Every cell holds the object that has last been written to it since its table was deleted. -/
theorem cell?_run (subject predicate : String) :
    ((run h).get k).cell? subject predicate = History.object? k h subject predicate := by
  rw [get_run, Table.cell?_writeAll]
  rfl

/-! ## Tables -/

theorem mem_tables_keys (s : Store) : k ∈ s.tables.keys ↔ (s.get? k).isSome = true := by
  rw [get?, Option.isSome_iff_ne_none, ne_eq, OrderedMap.get?_eq_none_iff, not_not]

/-- The keys of a store are those of the tables that are there. -/
theorem mem_keys_run : k ∈ (run h).keys ↔ History.Present k h := by
  calc k ∈ (run h).keys
      ↔ k ∈ (run h).tables.keys := by rw [keys, List.mem_mergeSort]
    _ ↔ ((run h).get? k).isSome = true := mem_tables_keys k (run h)
    _ ↔ History.Present k h := by rw [isSome_get?_run, decide_eq_true_iff]

theorem nodup_keys (s : Store) : s.keys.Nodup :=
  (List.mergeSort_perm s.tables.keys _).nodup_iff.2 s.tables.nodup_keys

/-- The size of a store is the number of tables that are there. -/
theorem size_run : (run h).size = {k ∈ (h.map Operation.key).toFinset | History.Present k h}.card := by
  have hsize : (run h).size = (run h).keys.length := by
    unfold size keys OrderedMap.size OrderedMap.keys Assoc.keys
    rw [List.length_mergeSort, List.length_map]
  -- the keys of the store are those that are present in the history
  have hset : (run h).keys.toFinset =
      {k ∈ (h.map Operation.key).toFinset | History.Present k h} := by
    ext k
    rw [List.mem_toFinset, mem_keys_run, Finset.mem_filter, List.mem_toFinset]
    constructor
    · intro hpresent
      exact ⟨History.mem_keys_of_present k h hpresent, hpresent⟩
    · exact And.right
  calc (run h).size = (run h).keys.length := hsize
    _ = (run h).keys.toFinset.card := (List.toFinset_card_of_nodup (nodup_keys _)).symm
    _ = _ := by rw [hset]

/-- The tables of a resource are those that are there, by their configurations. -/
theorem mem_ofResource_run (t : Table) :
    (k.configuration, t) ∈ (run h).ofResource k.resource ↔
      History.Present k h ∧ t = (run h).get k := by
  unfold ofResource
  rw [List.mem_map]
  constructor
  · -- a key is known by its resource and its configuration
    rintro ⟨k', hmem, hpair⟩
    rcases List.mem_filter.1 hmem with ⟨hkey, hresource⟩
    have hsame : k' = k := by
      cases k
      cases k'
      simp_all
    subst hsame
    cases hpair
    exact ⟨(mem_keys_run h k').1 hkey, rfl⟩
  · rintro ⟨hpresent, rfl⟩
    refine ⟨k, List.mem_filter.2 ⟨(mem_keys_run h k).2 hpresent, by simp⟩, rfl⟩

/-- No configuration of a resource occurs twice. -/
theorem nodup_ofResource (s : Store) (resource : String) :
    ((s.ofResource resource).map Prod.fst).Nodup := by
  unfold ofResource
  rw [List.map_map]
  apply List.Nodup.map_on
  · intro k hk l hl hsame
    have hkeys : k.resource = resource ∧ l.resource = resource := by
      simp only [List.mem_filter, decide_eq_true_iff] at hk hl
      exact ⟨hk.2, hl.2⟩
    cases k
    cases l
    simp_all
  · exact (nodup_keys s).filter _

/-! ## Cells -/

theorem cell_eq_existing {s : Store} {subject predicate object : String} :
    s.cell k subject predicate = .existing object ↔
      (s.get k).cell? subject predicate = some object := by
  unfold cell
  cases (s.get k).cell? subject predicate with
  | none => simp
  | some o => simp

theorem value?_cell (s : Store) (subject predicate : String) :
    (s.cell k subject predicate).value? = (s.get k).cell? subject predicate := by
  unfold cell
  cases (s.get k).cell? subject predicate with
  | none => rfl
  | some o => rfl

/-- A predicate is in the schema of a table if a cell has it. -/
theorem mem_schema {s : Store} {predicate : String} :
    predicate ∈ s.schema k ↔ ∃ subject object, s.cell k subject predicate = .existing object := by
  rw [OrderedSet.mem_iff, schema, Table.mem_predicates]
  simp only [cell_eq_existing]

/-- The rows are the first ones of the table, in its order. -/
theorem rows_front (s : Store) (atMost : Nat) : s.rows k atMost <+: (s.get k).toList :=
  List.take_prefix atMost _

theorem subjects_rows (s : Store) (atMost : Nat) :
    (s.rows k atMost).map Prod.fst = (s.get k).keys.take atMost :=
  List.map_take

/-- Cells that are set together are set one after the other, if there are any. -/
theorem putAll_eq_foldl (s : Store) (c : Cell) (cs : List Cell) :
    (s.putAll k (c :: cs)).2 = (c :: cs).foldl (fun s c => (s.put k c).2) s := by
  induction cs generalizing s c with
  | nil => rfl
  | cons d rest ih =>
      have hget : (s.put k c).2.get k = (s.get k).write c := by
        have hput : (s.put k c).2.get? k = some ((s.get k).write c) :=
          (OrderedMap.get?_put s.tables k k _).trans (if_pos rfl)
        rw [get, hput, Option.getD_some]
      calc (s.putAll k (c :: d :: rest)).2
          = ((s.put k c).2.putAll k (d :: rest)).2 := by
              -- the table with the first cell alone is replaced
              rw [putAll, putAll, hget]
              exact congrArg Store.mk (OrderedMap.put_put _ _ _ _).symm
        _ = (c :: d :: rest).foldl (fun s c => (s.put k c).2) s := ih (s.put k c).2 d

/-! ## What a store tells -/

/-- The answer to a write tells whether the table has been there. -/
theorem reply_run {α : Type u} (value : α) :
    (run h).reply k value = if History.Present k h then .existing value else .created value := by
  unfold reply
  rw [isSome_get?_run]
  simp only [decide_eq_true_iff]

/-- The answer to a write tells whether the table has been there, and which object stood in the
cell. -/
theorem fst_put_run (c : Cell) :
    ((run h).put k c).1 =
      if History.Present k h then .existing (History.object? k h c.subject c.predicate)
      else .created none := by
  unfold put
  rw [reply_run, cell?_run]
  by_cases hpresent : History.Present k h
  · rw [if_pos hpresent, if_pos hpresent]
  · -- an absent table has no cells
    rw [if_neg hpresent, if_neg hpresent, History.object?, History.log_of_not_present k h hpresent]
    rfl

/-- Whatever has happened to a store, what it tells is what has been written since. -/
theorem run_reflects : (run h).Reflects h where
  cell k subject predicate := by
    unfold cell
    rw [cell?_run]
    cases History.object? k h subject predicate with
    | none => rfl
    | some object => rfl
  mem_keys := mem_keys_run h
  nodup_keys := nodup_keys _
  size := size_run h
  ofResource := mem_ofResource_run h
  nodup_ofResource := nodup_ofResource _
  get k subject predicate := (value?_cell k _ subject predicate).symm
  subjects k := by rw [get_run, Table.keys_writeAll]
  predicates k subject := by rw [get_run, Table.keys_row_writeAll]
  rows k atMost := by
    refine ⟨rows_front k _ atMost, ?_⟩
    rw [subjects_rows, get_run, Table.keys_writeAll]
  schema k predicate := mem_schema k
  put := fst_put_run h
  putAll k cs := reply_run h k cs.length
  delete := isSome_get?_run h
  -- a list of cells that is not empty is written one by one
  putAll_eq k cs hne := by
    rcases List.exists_cons_of_ne_nil hne with ⟨c, rest, rfl⟩
    exact putAll_eq_foldl k _ c rest

end Store
end Recast
