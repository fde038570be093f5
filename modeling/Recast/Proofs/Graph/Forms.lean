import Recast.Graph.Form
import Recast.Proofs.Graph.Merge
import Recast.Proofs.Json.Fields
import Recast.Proofs.OrderedMap
import Recast.Proofs.Result

/-!
# Forms — models written, stripped and read again

The identified form of a model keys the statements of each record to its URI, the raw form has the
statements alone.  The identified form says everything about the records: read back, the model has the
same records with the same statements, each in the same order; it has no class, and its schema is
derived from the statements, `Model.ofJson_toJson`.

Stripping takes the first form to the second and recognizes records by nothing but their shape:
`Model.stripRecords_forms`, no record is missed and no statement taken for one.

A model that has been read names no class and has the schema of its statements, so that it is known by
its records and is read as it is ever after: `Model.reads_back`.
-/

namespace Recast

open Json (Written written writtenMembers)

/-! ## Fields -/

namespace Json.Written

theorem decode?_text (s : String) : decode? (s.toList.map .char) = some s := by
  simp [decode?, Piece.decode?_map_char]

/-- The keys of members are read back. -/
theorem keys?_writtenMembers (ms : List (String × Json)) :
    keys? (writtenMembers ms) = some (ms.map fun m => (m.1, written m.2)) := by
  induction ms with
  | nil => rfl
  | cons m rest ih =>
      obtain ⟨k, v⟩ := m
      simp [writtenMembers, writtenMember, keys?, decode?_text, ih]

/-- The fields of an object are read back if its keys are distinct and known. -/
theorem fields?_written {names : List String} {ms : List (String × Json)}
    (hnodup : (Assoc.keys ms).Nodup) (hknown : ∀ m ∈ ms, m.1 ∈ names) :
    (written (.object ms)).fields? names = some ⟨false, ms.map fun m => (m.1, written m.2)⟩ := by
  refine fields?_object (keys?_writtenMembers ms) ?_ ?_
  · simpa [Function.comp_def, Assoc.keys] using hnodup
  · intro kw hkw
    obtain ⟨m, hm, rfl⟩ := List.mem_map.1 hkw
    exact hknown m hm

theorem string?_written (s : String) : (written (.string s)).string? = some s :=
  decode?_text s

theorem choice?_written (s : String) : (written (.string s)).choice? = some s :=
  decode?_text s

end Json.Written

/-! ## Statements -/

/-- A node is read back. -/
theorem Node.ofWritten?_toJson (n : Node) : Node.ofWritten? (written n.toJson) = some n := by
  cases n with
  | resource uri =>
      rw [Node.ofWritten?, Node.toJson,
        Written.fields?_written (by simp [Assoc.keys]) (by simp)]
      simp [Json.Fields.required, List.lookup_cons, Written.choice?_written, Written.string?_written]
  | literal v =>
      rw [Node.ofWritten?, Node.toJson,
        Written.fields?_written (by simp [Assoc.keys]) (by simp)]
      simp [Json.Fields.required, List.lookup_cons, Written.choice?_written, Written.string?_written]

/-- A statement is read back. -/
theorem Statement.ofJson_toJson (s : Statement) : Statement.ofJson s.toJson = .ok s := by
  rw [Statement.ofJson, Statement.ofWritten, Statement.toJson,
    Written.fields?_written (by simp [Assoc.keys]) (by simp)]
  simp [Json.Fields.required, List.lookup_cons, Written.string?_written, Node.ofWritten?_toJson,
    Statement.make?_self, Except.mapError]

/-! ## Records -/

namespace Model

variable (m : Model) (record : String)

/-- Adding one more statement behind others adds them all together. -/
theorem addStatement_addStatements (ss : OrderedSet Statement) (s : Statement) :
    (m.addStatements record ss).addStatement record s = m.addStatements record (ss.insert s) := by
  have hof : (m.addStatements record ss).statementsOf record = (m.statementsOf record).union ss := by
    rw [statementsOf_eq, statementsFor?_addStatements, if_pos rfl]
    rfl
  rw [addStatement, hof, ← OrderedSet.union_insert]
  exact congrArg (fun rs => { m with records := rs }) (OrderedMap.put_put _ _ _ _)

/-- Statements that are read are added to their record. -/
theorem readStatements_toJson (ss : List Statement) (t : OrderedSet Statement) (position : Nat) :
    readStatements record (m.addStatements record t) position (ss.map Statement.toJson) =
      .ok (m.addStatements record (t.insertAll ss)) := by
  induction ss generalizing t position with
  | nil => rfl
  | cons s rest ih =>
      rw [List.map_cons, readStatements, Statement.ofJson_toJson]
      simp only
      rw [addStatement_addStatements]
      exact ih _ _

/-- Records that are read are added one after the other. -/
theorem readRecords_toJson (rs : List (String × OrderedSet Statement)) (index : Nat) :
    readRecords m index (rs.map fun r => .object [(r.1, .array (r.2.toList.map Statement.toJson))]) =
      .ok (m.grow rs) := by
  induction rs generalizing m index with
  | nil => rfl
  | cons r rest ih =>
      -- the record is there, without statements, before its first statement is read
      have hread : readStatements r.1 (m.addRecord r.1) 0 (r.2.toList.map Statement.toJson) =
          .ok (m.addStatements r.1 r.2) := by
        have hall := readStatements_toJson m r.1 r.2.toList .empty 0
        have hset : OrderedSet.empty.insertAll r.2.toList = r.2 := OrderedSet.ofList_toList r.2
        rwa [hset] at hall
      rw [List.map_cons, readRecords, hread]
      exact ih _ _

/-- Adding records changes nothing else of a model. -/
theorem rest_grow (rs : List (String × OrderedSet Statement)) :
    (m.grow rs).recordClass = m.recordClass ∧ (m.grow rs).schema = m.schema := by
  induction rs generalizing m with
  | nil => exact ⟨rfl, rfl⟩
  | cons r rest ih => exact ih _

/-- Adding the records of a model to the empty one makes the same records. -/
theorem empty_grow : empty.grow m.records.toList = { m with recordClass := none, schema := .empty } := by
  have hnodup := m.records.nodup_keys
  obtain ⟨hclass, hschema⟩ := rest_grow empty m.records.toList
  -- a model is seen through its record names, its statements, its class and its paths
  refine ext_view ?_ (fun k => ?_) hclass hschema
  · rw [recordUris_grow _ hnodup]
    simp [recordUris, empty, OrderedMap.keys, OrderedMap.empty, Assoc.keys]
  · have hsame : statementsFor? { m with recordClass := none, schema := .empty } k =
        Assoc.get? k m.records.toList := rfl
    rw [statementsFor?_grow _ hnodup, hsame]
    cases Assoc.get? k m.records.toList with
    | none => rfl
    | some ss =>
        have hset : (empty.statementsOf k).union ss = ss := OrderedSet.ofList_toList ss
        simp only [hset]

/-- A model that has been read back has the same records, no class, and the schema that is derived
from its statements. -/
theorem ofJson_toJson :
    ofJson m.toJson = .ok { m with recordClass := none, schema := m.derivedSchema } := by
  rw [toJson, ofJson, readRecords_toJson, empty_grow]
  rfl

end Model

namespace Model

/-! ## Stripping -/

/-- The object of a statement has three members, and is no record. -/
theorem recordItems_statement (s : Statement) : recordItems s.toJson = [s.toJson] := rfl

theorem recordItems_record (record : String) (items : List Json) :
    recordItems (.object [(record, .array items)]) = items := rfl

/-- Statements of the raw form stay as they are when records are looked for. -/
theorem flatMap_statements (ss : List Statement) :
    (ss.map Statement.toJson).flatMap recordItems = ss.map Statement.toJson := by
  calc (ss.map Statement.toJson).flatMap recordItems
      = ss.flatMap fun s => [s.toJson] := by simp only [List.flatMap_map, recordItems_statement]
    _ = ss.map Statement.toJson := List.map_eq_flatMap.symm

/-- The identified form without its records is the raw form. -/
theorem stripRecords_toJson (m : Model) : stripRecords m.toJson = m.toRawJson := by
  have hitems : (m.records.toList.map fun r =>
      Json.object [(r.1, .array (r.2.toList.map Statement.toJson))]).flatMap recordItems =
        m.statements.map Statement.toJson := by
    calc (m.records.toList.map fun r =>
          Json.object [(r.1, .array (r.2.toList.map Statement.toJson))]).flatMap recordItems
        = m.records.toList.flatMap fun r => r.2.toList.map Statement.toJson := by
            simp only [List.flatMap_map, recordItems_record]
      _ = m.statements.map Statement.toJson := by rw [statements, List.map_flatMap]
  exact congrArg Json.array hitems

/-- Stripping the identified form of a model gives its raw form, with all statements in their order,
and the raw form is left as it is. -/
theorem stripRecords_forms (m : Model) :
    stripRecords m.toJson = m.toRawJson ∧ stripRecords m.toRawJson = m.toRawJson := by
  refine ⟨stripRecords_toJson m, ?_⟩
  exact congrArg Json.array (flatMap_statements m.statements)

/-! ## Reading -/

/-- A model that names no class and has the schema that is derived from its statements. -/
structure Bare (m : Model) : Prop where
  recordClass : m.recordClass = none
  schema : m.schema = m.derivedSchema

/-- Reading statements names no class. -/
theorem recordClass_readStatements {m m' : Model} {record : String} {position : Nat}
    {items : List Json} (h : readStatements record m position items = .ok m') :
    m'.recordClass = m.recordClass := by
  induction items generalizing m position with
  | nil =>
      cases h
      rfl
  | cons v rest ih =>
      rw [readStatements] at h
      cases hstatement : Statement.ofJson v with
      | error cause =>
          rw [hstatement] at h
          cases h
      | ok s =>
          rw [hstatement] at h
          calc m'.recordClass
              = (m.addStatement record s).recordClass := ih h
            _ = m.recordClass := rfl

/-- Reading records names no class. -/
theorem recordClass_readRecords {m m' : Model} {index : Nat} {items : List Json}
    (h : readRecords m index items = .ok m') : m'.recordClass = m.recordClass := by
  fun_induction readRecords m index items with
  | case1 m index =>
      cases h
      rfl
  | case2 m index record items rest ih =>
      rcases bind_eq_ok.1 h with ⟨grown, hgrown, hrest⟩
      calc m'.recordClass
          = grown.recordClass := ih grown hrest
        _ = (m.addRecord record).recordClass := recordClass_readStatements hgrown
        _ = m.recordClass := rfl
  | case3 => cases h

/-- A model that has been read is bare. -/
theorem bare_of_ofJson {v : Json} {m : Model} (h : ofJson v = .ok m) : m.Bare := by
  cases v with
  | array items =>
      rcases bind_eq_ok.1 h with ⟨read, hread, hm⟩
      cases hm
      exact ⟨recordClass_readRecords hread, rfl⟩
  | _ => cases h

/-- A bare model is read back. -/
theorem Bare.ofJson_toJson {m : Model} (h : m.Bare) : ofJson m.toJson = .ok m := by
  have hsame : { m with recordClass := none, schema := m.derivedSchema } = m := by
    rw [← h.recordClass, ← h.schema]
  rw [Model.ofJson_toJson, hsame]

/-- Every model is read back from its identified form with the same records and statements in the
same order, without a class and with the schema that is derived from it; and whatever value a model
has been read from, it is read again as the same model. -/
theorem reads_back :
    (∀ m : Model, ∃ m', ofJson m.toJson = .ok m' ∧ m'.records = m.records ∧
      m'.recordClass = none ∧ m'.schema = m.derivedSchema) ∧
    ∀ (v : Json) (m : Model), ofJson v = .ok m → ofJson m.toJson = .ok m := by
  refine ⟨?_, ?_⟩
  · intro m
    exact ⟨_, ofJson_toJson m, rfl, rfl, rfl⟩
  · intro v m h
    exact (bare_of_ofJson h).ofJson_toJson

end Model
end Recast
