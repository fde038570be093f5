import Recast.Proofs.Compile.Interchange
import Recast.Proofs.Json.Fields

/-!
# Rewritten — job descriptions whose tables are written in the other way

The table of a function is written as an object, `{"data": o}`, or as a block of parameters,
`{"repeat": true, "parameters": {k: {"data": o[k]}, ...}}`.  Two documents in which tables are written
in these two ways, and which are the same otherwise, are read as descriptions that are interchanged,
or neither can be read.

The reader does not follow what is nested too deep, and a table that is written as a block is nested
deeper than one that is not.  A table of a hundred levels stays readable either way.

Main statement: `Job.Description.tables_interchange`.
-/

namespace Recast

open Json (Written Piece)

/-! ## Parameters -/

namespace ParameterDescription

def writtenKey (key : String) : List Piece :=
  key.toList.map .char

/-- A table as the data of its parameter: `{"data": o}`. -/
def inlineForm (o : List (List Piece × Written)) : Written :=
  .object [(writtenKey "data", .object o)]

/-- A table as a block: `{"repeat": true, "parameters": {k: {"data": o[k]}, ...}}`. -/
def blockForm (o : List (List Piece × Written)) : Written :=
  .object [(writtenKey "repeat", .bool true),
    (writtenKey "parameters",
      .object (o.map fun m => (m.1, .object [(writtenKey "data", m.2)])))]

/-- Two keyed parameters are the same, or they are the two forms of a table of a function. -/
inductive Rewritten (function : String) : List Piece × Written → List Piece × Written → Prop where
  | same (m : List Piece × Written) : Rewritten function m m
  | table {k : List Piece} {key : String} {o : List (List Piece × Written)}
      {members : List (String × Json)} (hkey : Written.decode? k = some key)
      (htakes : TakesTable function key) (ho : Written.members? o = some members)
      (hdistinct : (members.map Prod.fst).Nodup) (hwhole : (Json.object members).whole = true)
      (hdepth : (Written.object o).depth ≤ 100) :
      Rewritten function (k, inlineForm o) (k, blockForm o)

inductive BlockRewritten (function : String) : Written → Written → Prop where
  | entries {ms ms' : List (List Piece × Written)}
      (h : List.Forall₂ (Rewritten function) ms ms') :
      BlockRewritten function (.object ms) (.object ms')

/-- A written key is read back. -/
theorem decode?_writtenKey (key : String) : Written.decode? (writtenKey key) = some key := by
  simp [Written.decode?, writtenKey, Piece.decode?_map_char]

/-- The data of a parameter is the value that is read, unless it is null. -/
theorem nullable?_value? {w : Written} {v : Json} (h : w.value? = some v) :
    w.nullable? Written.value? = some (asData v) := by
  cases w with
  | null =>
      cases h
      rfl
  | bool b =>
      cases h
      rfl
  | tooDeep => cases h
  | number _ | text _ | array _ | object _ =>
      obtain ⟨_, -, rfl⟩ := Option.map_eq_some_iff.1 h
      simp [Written.nullable?, h, asData]

/-- The parameter whose only member is its data. -/
theorem ofWritten?_data {w : Written} {v : Json} (h : w.value? = some v) :
    ofWritten? (.object [(writtenKey "data", w)]) = some (ofData (asData v)) := by
  simp [ofWritten?, ofMembers?, member?, decode?_writtenKey, nullable?_value? h, Draft.finish, ofData]

/-- The first form is printed for an object under `data`. -/
theorem document_inlineForm (members : List (String × Json)) :
    (Json.object [("data", .object members)]).document =
      inlineForm (Json.membersDocument members) :=
  rfl

/-- The second form is printed for a block with the members of an object. -/
theorem document_blockForm (members : List (String × Json)) :
    (Json.object [("repeat", .bool true),
        ("parameters", .object (members.map fun m => (m.1, .object [("data", m.2)])))]).document =
      blockForm (Json.membersDocument members) := by
  have hmembers : Json.membersDocument (members.map fun m => (m.1, .object [("data", m.2)])) =
      (Json.membersDocument members).map fun m => (m.1, .object [(writtenKey "data", m.2)]) := by
    induction members with
    | nil => rfl
    | cons m rest ih =>
        obtain ⟨k, v⟩ := m
        rw [List.map_cons, Json.membersDocument, Json.membersDocument, List.map_cons, ih]
        rfl
  rw [blockForm, ← hmembers]
  rfl

variable {o : List (List Piece × Written)} {members : List (String × Json)}

/-- The first form is read as the inlined table. -/
theorem ofWritten?_inlineForm (h : Written.members? o = some members)
    (hdistinct : (members.map Prod.fst).Nodup) :
    ofWritten? (inlineForm o) = some (inlined members) := by
  have hvalue : (Written.object o).value? = some (.object members) := by
    rw [Written.value?, h, Option.map_some, Assoc.ofList_of_nodup hdistinct]
  exact ofWritten?_data hvalue

/-- The parameters of a block are read one by one, each with its data. -/
theorem entries?_block (h : Written.members? o = some members) :
    entries? (o.map fun m => (m.1, .object [(writtenKey "data", m.2)])) =
      some (members.map fun m => (m.1, ofData (asData m.2))) := by
  induction o generalizing members with
  | nil =>
      cases h
      rfl
  | cons m rest ih =>
      -- the first member is a key that can be decoded and a value that can be read
      obtain ⟨kv, hkv, h⟩ := Option.bind_eq_some_iff.1 h
      obtain ⟨kvs, hkvs, h⟩ := Option.bind_eq_some_iff.1 h
      cases h
      obtain ⟨k, w⟩ := m
      obtain ⟨s, hs, hkv⟩ := Option.bind_eq_some_iff.1 hkv
      obtain ⟨v, hv, hkv⟩ := Option.bind_eq_some_iff.1 hkv
      cases hkv
      simp [entries?, entry?, hs, ofWritten?_data hv, ih hkvs]

/-- The second form is read as the block of the table. -/
theorem ofWritten?_blockForm (h : Written.members? o = some members) :
    ofWritten? (blockForm o) = some (blocked members) := by
  simp [blockForm, ofWritten?, ofMembers?, member?, decode?_writtenKey, Written.bool?, block?,
    entries?_block h, Draft.finish, blocked]

/-- What is read of an object that is not too deep can be a table. -/
theorem tabular_of_members? (ho : Written.members? o = some members)
    (hdistinct : (members.map Prod.fst).Nodup) (hwhole : (Json.object members).whole = true)
    (hdepth : (Written.object o).depth ≤ 100) : Tabular members where
  whole := hwhole
  tidy := ⟨hdistinct, Json.tidyMembers_iff.2 (Json.tidy_of_members? o ho)⟩
  shallow := by
    have hmembers := Json.depth_of_members? o ho
    rw [Written.depth] at hdepth
    rw [Json.depth, Json.maxDepth]
    omega

/-- The first form is one deeper than its object. -/
theorem depth_inlineForm (o : List (List Piece × Written)) :
    (inlineForm o).depth = (Written.object o).depth + 1 := by
  simp [inlineForm, Written.depth, Written.membersDepth, Written.memberDepth]

/-- The second form is two deeper than its object at most. -/
theorem depth_blockForm (o : List (List Piece × Written)) :
    (blockForm o).depth ≤ (Written.object o).depth + 2 := by
  have hmembers : Written.membersDepth (o.map fun m => (m.1, .object [(writtenKey "data", m.2)])) ≤
      Written.membersDepth o + 1 := by
    induction o with
    | nil => simp [Written.membersDepth]
    | cons m rest ih =>
        obtain ⟨k, w⟩ := m
        simp only [List.map_cons, Written.membersDepth, Written.memberDepth, Written.depth]
        omega
  simp only [blockForm, Written.depth, Written.membersDepth, Written.memberDepth]
  omega

variable {function : String}

/-- Parameters that are the two forms of a table are read as its two descriptions. -/
theorem entry?_rewritten {m m' : List Piece × Written} (h : Rewritten function m m') {n : Nat}
    (hn : 102 ≤ n) :
    Option.Rel (Interchanged function) (Written.clipMember n m |> entry?)
      (Written.clipMember n m' |> entry?) := by
  cases h with
  | same =>
      cases entry? (Written.clipMember n m) with
      | none => exact .none
      | some p => exact .some (.same p)
  | table hkey htakes ho hdistinct hwhole hdepth =>
      rename_i o _
      -- neither form is so deep that anything in it is clipped
      have hinline : (inlineForm o).clip n = inlineForm o :=
        Written.clip_of_depth _ _ (by rw [depth_inlineForm]; omega)
      have hblock : (blockForm o).clip n = blockForm o :=
        Written.clip_of_depth _ _ (Nat.le_trans (depth_blockForm o) (by omega))
      simp only [Written.clipMember, hinline, hblock, entry?, hkey, ofWritten?_inlineForm ho hdistinct,
        ofWritten?_blockForm ho]
      exact .some (.table htakes (tabular_of_members? ho hdistinct hwhole hdepth))

/-- Keyed parameters in the two forms are read as interchanged ones. -/
theorem entries?_rewritten {ms ms' : List (List Piece × Written)}
    (h : List.Forall₂ (Rewritten function) ms ms') {n : Nat} (hn : 102 ≤ n) :
    Option.Rel (List.Forall₂ (Interchanged function)) (entries? (Written.clipMembers n ms))
      (entries? (Written.clipMembers n ms')) := by
  induction h with
  | nil => exact .some .nil
  | cons hm _ ih =>
      rw [Written.clipMembers, Written.clipMembers, entries?, entries?]
      refine rel_bind (entry?_rewritten hm hn) fun p q hpq => ?_
      exact rel_bind ih fun ps qs hrest => .some (.cons hpq hrest)

/-- Blocks with tables in the two forms are read as interchanged ones. -/
theorem block?_rewritten {w w' : Written} (h : w = w' ∨ BlockRewritten function w w') (n : Nat)
    (hn : 103 ≤ n) : Option.Rel (List.Forall₂ (Interchanged function)) (block? (w.clip n))
      (block? (w'.clip n)) := by
  obtain ⟨n, rfl⟩ : ∃ m, n = m + 1 := ⟨n - 1, by omega⟩
  rcases h with rfl | h
  · cases block? (w.clip (n + 1)) with
    | none => exact .none
    | some ps => exact .some (List.forall₂_same.2 fun p _ => .same p)
  · obtain ⟨hall⟩ := h
    rw [Written.clip, Written.clip, block?, block?]
    exact entries?_rewritten hall (by omega)

end ParameterDescription

/-! ## Components -/

/-- Two payloads are the same, except for the forms of tables. -/
def PayloadDescription.Rewritten (function : String) : Written → Written → Prop :=
  Written.FieldsAlike ["name", "parameters"] fun name u v =>
    u = v ∨ name = "parameters" ∧ ParameterDescription.BlockRewritten function u v

/-- Two components are the same, except for the forms of tables of a function. -/
def ComponentDescription.Rewritten (function : String) (w w' : Written) : Prop :=
  w = w' ∨
    Written.FieldsAlike
      ["id", "name", "type", "inputs", "outputs", "parameters", "payload", "filter"]
      (fun name u v => u = v ∨
        name = "parameters" ∧ ParameterDescription.BlockRewritten function u v ∨
        name = "payload" ∧ PayloadDescription.Rewritten function u v) w w'

theorem nullable?_of_fields? {names : List String} {w : Written} {f : Json.Fields}
    (h : w.fields? names = some f) {α : Type} (read? : Written → Option α) :
    w.nullable? read? = (read? w).map some := by
  cases w with
  | null => cases h
  | _ => rfl

/-- Payloads with tables in the two forms are read as interchanged ones. -/
theorem PayloadDescription.ofWritten?_rewritten {function : String} {w w' : Written}
    (h : PayloadDescription.Rewritten function w w') {n : Nat} (hn : 104 ≤ n) :
    Option.Rel (ComponentDescription.PayloadInterchanged function)
      (PayloadDescription.ofWritten? (w.clip n)) (PayloadDescription.ofWritten? (w'.clip n)) := by
  -- each level of the document takes one from the depth that is left
  obtain ⟨n, rfl⟩ : ∃ m, n = m + 1 := ⟨n - 1, by omega⟩
  obtain ⟨f, g, hf, hg, hfg⟩ := h.fields?_clip n
  have hparameters : Option.Rel (List.Forall₂ (ParameterDescription.Interchanged function))
      (f.defaulted "parameters" [] fun u => ParameterDescription.block? (u.clip n))
      (g.defaulted "parameters" [] fun v => ParameterDescription.block? (v.clip n)) :=
    hfg.defaulted "parameters" .nil fun u v huv =>
      ParameterDescription.block?_rewritten (by simpa using huv) n (by omega)
  unfold PayloadDescription.ofWritten?
  rw [hf, hg]
  simp only [Option.bind_eq_bind, Option.bind_some, Json.Fields.defaulted_clip]
  rw [hfg.defaulted_eq "name" (by simp)]
  refine rel_bind (rel_eq _) ?_
  rintro name _ rfl
  exact rel_bind hparameters fun ps qs hall => .some ⟨rfl, hall⟩

namespace ComponentDescription

/-- The same where there may be no payload. -/
theorem payload_rewritten {function : String} {w w' : Written}
    (h : w = w' ∨ PayloadDescription.Rewritten function w w') (n : Nat) (hn : 104 ≤ n) :
    Option.Rel (Option.Rel (PayloadInterchanged function))
      ((w.clip n).nullable? PayloadDescription.ofWritten?)
      ((w'.clip n).nullable? PayloadDescription.ofWritten?) := by
  rcases h with rfl | h
  · cases (w.clip n).nullable? PayloadDescription.ofWritten? with
    | none => exact .none
    | some p? =>
        cases p? with
        | none => exact .some .none
        | some p => exact .some (.some ⟨rfl, List.forall₂_same.2 fun _ _ => .same _⟩)
  · have hread := PayloadDescription.ofWritten?_rewritten h hn
    obtain ⟨n, rfl⟩ : ∃ m, n = m + 1 := ⟨n - 1, by omega⟩
    obtain ⟨f, g, hf, hg, -⟩ := h.fields?_clip n
    rw [nullable?_of_fields? hf, nullable?_of_fields? hg]
    exact rel_map hread fun p q hpq => .some hpq

/-- Components that differ in the forms of tables of their function are read as components that are
interchanged. -/
theorem ofWritten?_rewritten {function : String} {w w' : Written}
    (h : ComponentDescription.Rewritten function w w') {n : Nat} (hn : 105 ≤ n) :
    Option.Rel (fun c c' => c.function = function → c.Interchanged c')
      (ComponentDescription.ofWritten? (w.clip n)) (ComponentDescription.ofWritten? (w'.clip n)) := by
  obtain ⟨n, rfl⟩ : ∃ m, n = m + 1 := ⟨n - 1, by omega⟩
  rcases h with rfl | h
  · cases ComponentDescription.ofWritten? (w.clip (n + 1)) with
    | none => exact .none
    | some c => exact .some fun _ => .refl c
  · obtain ⟨f, g, hf, hg, hfg⟩ := h.fields?_clip n
    have hparameters : Option.Rel (List.Forall₂ (ParameterDescription.Interchanged function))
        (f.defaulted "parameters" [] fun u => ParameterDescription.block? (u.clip n))
        (g.defaulted "parameters" [] fun v => ParameterDescription.block? (v.clip n)) :=
      hfg.defaulted "parameters" .nil fun u v huv =>
        ParameterDescription.block?_rewritten (by simpa using huv) n (by omega)
    have hpayload : Option.Rel (Option.Rel (PayloadInterchanged function))
        (f.defaulted "payload" none fun u => (u.clip n).nullable? PayloadDescription.ofWritten?)
        (g.defaulted "payload" none fun v => (v.clip n).nullable? PayloadDescription.ofWritten?) :=
      hfg.defaulted "payload" .none fun u v huv => payload_rewritten (by simpa using huv) n (by omega)
    unfold ComponentDescription.ofWritten?
    rw [hf, hg]
    simp only [Option.bind_eq_bind, Option.bind_some, Json.Fields.defaulted_clip,
      Json.Fields.required_clip]
    rw [hfg.required_eq "id" (by simp), hfg.defaulted_eq "name" (by simp),
      hfg.required_eq "type" (by simp), hfg.defaulted_eq "inputs" (by simp),
      hfg.defaulted_eq "outputs" (by simp), hfg.defaulted_eq "filter" (by simp)]
    -- one field after the other
    refine rel_bind (rel_eq _) ?_
    rintro id _ rfl
    refine rel_bind (rel_eq _) ?_
    rintro name _ rfl
    refine rel_bind (rel_eq _) ?_
    rintro type _ rfl
    refine rel_bind (rel_eq _) ?_
    rintro inputs _ rfl
    refine rel_bind (rel_eq _) ?_
    rintro outputs _ rfl
    refine rel_bind hparameters fun ps qs hps => ?_
    refine rel_bind hpayload fun p q hpq => ?_
    refine rel_bind (rel_eq _) ?_
    rintro filter _ rfl
    refine .some fun hfunction => ?_
    -- the tables are those of the function that has been read
    cases hfunction
    exact ⟨rfl, rfl, rfl, rfl, rfl, rfl, hpq, hps⟩

end ComponentDescription

/-! ## Jobs -/

namespace Job.Description

/-- Components one after the other are the same, except for the forms of tables of the functions. -/
inductive ComponentsRewritten : List String → List Written → List Written → Prop where
  | nil : ComponentsRewritten [] [] []
  | cons {function : String} {functions : List String} {w w' : Written} {ws ws' : List Written}
      (h : ComponentDescription.Rewritten function w w')
      (hrest : ComponentsRewritten functions ws ws') :
      ComponentsRewritten (function :: functions) (w :: ws) (w' :: ws')

/-- Two descriptions are the same, except for the forms of tables of the functions that the
components have. -/
def Rewritten (functions : List String) : Written → Written → Prop :=
  Written.FieldsAlike ["id", "name", "variables", "components"] fun name u v =>
    u = v ∨ name = "components" ∧ ∃ ws ws', u = .array ws ∧ v = .array ws' ∧
      ComponentsRewritten functions ws ws'

/-- Components one after the other are read as interchanged ones. -/
theorem components_rewritten {functions : List String} {ws ws' : List Written}
    (h : ComponentsRewritten functions ws ws') {n : Nat} (hn : 105 ≤ n) :
    Option.Rel (fun cs cs' => cs.map ComponentDescription.function = functions →
        List.Forall₂ ComponentDescription.Interchanged cs cs')
      ((Written.clipItems n ws).mapM ComponentDescription.ofWritten?)
      ((Written.clipItems n ws').mapM ComponentDescription.ofWritten?) := by
  induction h with
  | nil => exact .some fun _ => .nil
  | cons hw _ ih =>
      rw [Written.clipItems, Written.clipItems, List.mapM_cons, List.mapM_cons]
      refine rel_bind (ComponentDescription.ofWritten?_rewritten hw hn) fun c c' hc => ?_
      refine rel_bind ih fun cs cs' hrest => .some fun hfunctions => ?_
      rw [List.map_cons, List.cons.injEq] at hfunctions
      exact .cons (hc hfunctions.1) (hrest hfunctions.2)

/-- Both descriptions can be read, or neither, and they are interchanged. -/
theorem ofWritten?_rewritten {functions : List String} {w w' : Written}
    (h : Rewritten functions w w') {n : Nat} (hn : 107 ≤ n) :
    Option.Rel (fun d e => d.components.map ComponentDescription.function = functions →
        d.Interchanged e) (ofWritten? (w.clip n)) (ofWritten? (w'.clip n)) := by
  -- two levels are taken here, that of the description and that of its list of components
  obtain ⟨n, rfl⟩ : ∃ m, n = m + 2 := ⟨n - 2, by omega⟩
  obtain ⟨f, g, hf, hg, hfg⟩ := h.fields?_clip (n + 1)
  have hcomponents : Option.Rel (fun cs cs' => cs.map ComponentDescription.function = functions →
        List.Forall₂ ComponentDescription.Interchanged cs cs')
      (f.required "components" fun u => (u.clip (n + 1)).list? ComponentDescription.ofWritten?)
      (g.required "components" fun v => (v.clip (n + 1)).list? ComponentDescription.ofWritten?) := by
    refine hfg.required "components" fun u v huv => ?_
    rcases huv with rfl | ⟨-, ws, ws', rfl, rfl, hall⟩
    · cases (u.clip (n + 1)).list? ComponentDescription.ofWritten? with
      | none => exact .none
      | some cs => exact .some fun _ => List.forall₂_same.2 fun c _ => .refl c
    · exact components_rewritten hall (by omega)
  unfold ofWritten?
  rw [hf, hg]
  simp only [Option.bind_eq_bind, Option.bind_some, Json.Fields.defaulted_clip,
    Json.Fields.required_clip]
  rw [hfg.defaulted_eq "id" (by simp), hfg.defaulted_eq "name" (by simp),
    hfg.defaulted_eq "variables" (by simp)]
  -- one field after the other
  refine rel_bind (rel_eq _) ?_
  rintro id _ rfl
  refine rel_bind (rel_eq _) ?_
  rintro name _ rfl
  refine rel_bind (rel_eq _) ?_
  rintro vars _ rfl
  refine rel_bind hcomponents fun cs cs' hcs => .some ?_
  intro hfunctions
  exact ⟨rfl, rfl, rfl, hcs hfunctions⟩

/-- A text that spells a document is read as this document, clipped where it is too deep. -/
theorem ofText?_spelled {w : Written} {s : String} (h : w.Spelled s) :
    ofText? s = ofWritten? (w.clip Json.maxDepth) := by
  rw [ofText?, Written.ofText?_spelled h, Option.bind_some]

/-- Two texts spell descriptions that differ in the forms of tables.  Both are read, or neither is,
and they compile to the same script or are refused for the same reasons. -/
theorem tables_interchange {functions : List String} {w w' : Written} {s t : String}
    (hs : w.Spelled s) (ht : w'.Spelled t) (h : Rewritten functions w w')
    (hfunctions : ∀ d, ofText? s = some d →
      d.components.map ComponentDescription.function = functions) :
    (ofText? s).isSome = (ofText? t).isSome ∧ Job.compileText s = Job.compileText t := by
  have hread := ofWritten?_rewritten h (n := Json.maxDepth) (by decide)
  rw [← ofText?_spelled hs, ← ofText?_spelled ht] at hread
  unfold Job.compileText load
  generalize ofText? s = d?, ofText? t = e? at hread hfunctions
  cases hread with
  | none => exact ⟨rfl, rfl⟩
  | some hde => exact ⟨rfl, (hde (hfunctions _ rfl)).compile_eq⟩

def glosses : List (String × Json) :=
  [("a", .string "\x01\""), ("b", .number (.integer (-7))), ("c", .null),
    ("d", .array [.bool true, .object [("e", .string "f")]])]

/-- A job that looks values up in a table. -/
def glossing (table : Json) : Json :=
  .object [("name", .string "j"), ("components", .array
    [.object [("id", .string "S"), ("type", .string "source"), ("outputs", .ofStrings ["F"])],
     .object [("id", .string "F"), ("name", .string "lookup"), ("type", .string "fun"),
       ("inputs", .ofStrings ["S"]), ("outputs", .ofStrings ["T"]),
       ("parameters", .object [("in", table)])],
     .object [("id", .string "T"), ("type", .string "target"), ("inputs", .ofStrings ["F"])]])]

def inlineGlossing : Json :=
  glossing (.object [("data", .object glosses)])

def blockGlossing : Json :=
  glossing (.object [("repeat", .bool true),
    ("parameters", .object (glosses.map fun m => (m.1, .object [("data", m.2)])))])

/-- The two forms of the job are rewritten. -/
theorem rewritten_glossing :
    Rewritten ["S", "lookup", "T"] inlineGlossing.document blockGlossing.document := by
  have ho : Written.members? (Json.membersDocument glosses) = some glosses := by
    decide +kernel
  have htable : ParameterDescription.Rewritten "lookup"
      (Json.memberDocument ("in", .object [("data", .object glosses)]))
      (Json.memberDocument ("in", .object [("repeat", .bool true),
        ("parameters", .object (glosses.map fun m => (m.1, .object [("data", m.2)])))])) := by
    rw [Json.memberDocument, Json.memberDocument, ParameterDescription.document_inlineForm,
      ParameterDescription.document_blockForm]
    exact .table (Json.decode?_quoted "in") (by decide) ho (by decide) (by decide) (by decide)
  -- of the three components only the second one is written otherwise
  refine ⟨_, _, rfl, rfl, .of_forall₂ (.cons ⟨rfl, .inl rfl⟩
    (.cons ⟨rfl, .inr ⟨rfl, _, _, rfl, rfl, ?_⟩⟩ .nil))⟩
  refine .cons (.inl rfl) (.cons (.inr ?_) (.cons (.inl rfl) .nil))
  refine ⟨_, _, rfl, rfl, .of_forall₂ ?_⟩
  have hblock := ParameterDescription.BlockRewritten.entries (.cons htable .nil)
  -- of its fields only the last one, the block of parameters
  exact .cons ⟨rfl, .inl rfl⟩ (.cons ⟨rfl, .inl rfl⟩ (.cons ⟨rfl, .inl rfl⟩
    (.cons ⟨rfl, .inl rfl⟩ (.cons ⟨rfl, .inl rfl⟩ (.cons ⟨rfl, .inr (.inl ⟨rfl, hblock⟩)⟩ .nil)))))

theorem ofText?_glossing :
    ofText? inlineGlossing.compact = ofWritten? inlineGlossing.document := by
  rw [ofText?, Json.ofText?_compact (by decide) (by decide), Option.bind_some]

/-- A table with values of every kind, as data and as a block. -/
theorem tables_interchange_glossing :
    (Job.compileText inlineGlossing.compact).toOption.isSome ∧
      (ofText? inlineGlossing.compact).isSome = (ofText? blockGlossing.compact).isSome ∧
      Job.compileText inlineGlossing.compact = Job.compileText blockGlossing.compact := by
  have hinline : inlineGlossing.document.Spelled inlineGlossing.compact :=
    Json.spelled_compact (by decide) (by decide)
  have hblock : blockGlossing.document.Spelled blockGlossing.compact :=
    Json.spelled_compact (by decide) (by decide)
  have hfunctions : ∀ d, ofText? inlineGlossing.compact = some d →
      d.components.map ComponentDescription.function = ["S", "lookup", "T"] := by
    have hall : ∀ d ∈ ofWritten? inlineGlossing.document,
        d.components.map ComponentDescription.function = ["S", "lookup", "T"] := by decide +kernel
    intro d hd
    exact hall d (ofText?_glossing ▸ hd)
  refine ⟨?_, tables_interchange hinline hblock rewritten_glossing hfunctions⟩
  -- the first form is read, typed and compiled
  have hcompiles : ((ofWritten? inlineGlossing.document).bind fun d =>
      d.job.toOption.bind fun j => j.compile.toOption).isSome := by decide +kernel
  obtain ⟨script, hscript⟩ := Option.isSome_iff_exists.1 hcompiles
  obtain ⟨d, hd, hscript⟩ := Option.bind_eq_some_iff.1 hscript
  obtain ⟨j, hj, hscript⟩ := Option.bind_eq_some_iff.1 hscript
  have hjob : d.job = .ok j := by
    generalize d.job = result at hj
    cases result with
    | error _ => cases hj
    | ok _ =>
        cases hj
        rfl
  have hload : load inlineGlossing.compact = .ok j := by
    rw [load, ofText?_glossing, hd]
    exact mapError_eq_ok.2 hjob
  have hcompile : Job.compileText inlineGlossing.compact = j.compile := by
    rw [Job.compileText, hload]
    rfl
  rw [hcompile, hscript]
  rfl

end Job.Description
end Recast
