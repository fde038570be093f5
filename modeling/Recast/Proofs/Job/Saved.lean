import Recast.Job.Description
import Recast.Proofs.Json.Fields

/-!
# Saved — descriptions that are written and read again

A description is written with all its fields, those that were left out included, and parameters are
written in the order in which they are kept, whatever keys are repeated.  What is read is the
description again: `Job.Description.reads_saved`, for any text that a description can be read from, as
long as the numbers in its data are whole and the text that is written is not too deep.

* `Json.Kept` — data that is read as it is written;
* `Job.Description.dataValues` — the data of all parameters, at every level.
-/

namespace Recast

open Json (Written Piece)

/-- A value that is data after it has been written: null would be read as no data at all. -/
structure Json.Kept (v : Json) : Prop where
  present : v ≠ .null
  tidy : v.Tidy

namespace ParameterDescription

/-! ## Data -/

mutual
/-- The data of a parameter and of those inside it. -/
def dataValues : ParameterDescription → List Json
  | ⟨_, _, data, _, parameters⟩ => data.toList ++ entriesData parameters

def entriesData : List (String × ParameterDescription) → List Json
  | [] => []
  | p :: rest => entryData p ++ entriesData rest

def entryData : String × ParameterDescription → List Json
  | (_, p) => dataValues p
end

theorem forall_dataValues {p : ParameterDescription} {P : Json → Prop} :
    (∀ v ∈ p.dataValues, P v) ↔ (∀ v ∈ p.data, P v) ∧ ∀ v ∈ entriesData p.parameters, P v := by
  obtain ⟨name, type, data, repeats, parameters⟩ := p
  rw [dataValues, List.forall_mem_append]
  simp only [Option.mem_toList]
  rfl

/-! ## Reading -/

/-- Data that is read is never null. -/
theorem kept_of_nullable? {w : Written} {data : Option Json}
    (h : w.nullable? Written.value? = some data) : ∀ v ∈ data, v.Kept := by
  intro v hv
  obtain rfl : data = some v := hv
  -- a value that is there has been read from what is written, and is not null
  cases w with
  | null => cases h
  | tooDeep => cases h
  | bool b =>
      cases h
      exact ⟨nofun, trivial⟩
  | number _ | text _ | array _ | object _ =>
      obtain ⟨v', hv', heq⟩ := Option.map_eq_some_iff.1 h
      cases heq
      refine ⟨?_, Json.tidy_of_value? _ hv'⟩
      obtain ⟨_, -, rfl⟩ := Option.map_eq_some_iff.1 hv'
      nofun

structure Draft.Kept (p : Draft) : Prop where
  data : ∀ v ∈ p.data.getD none, v.Kept
  parameters : ∀ v ∈ entriesData (p.parameters.getD []), v.Kept

/-- A field that is read where it has not been read before. -/
theorem exists_of_once {α β : Type} {done : Bool} {x : Option α} {f : α → β} {b : β}
    (h : (if done = true then none else do let a ← x; return f a) = some b) :
    ∃ a, x = some a ∧ f a = b := by
  cases done with
  | true => cases h
  | false =>
      obtain ⟨a, ha, h⟩ := Option.bind_eq_some_iff.1 h
      exact ⟨a, ha, Option.some.inj h⟩

/-- A parameter without data, inside or out. -/
theorem kept_of_missing {p : ParameterDescription} (hdata : p.data = none)
    (hparameters : p.parameters = []) : ∀ v ∈ p.dataValues, v.Kept := by
  rw [forall_dataValues, hdata, hparameters]
  exact ⟨nofun, nofun⟩

-- along a document, and along what has been read of a parameter
mutual
/-- All data of a parameter that has been read is kept when it is written. -/
theorem kept_of_ofWritten? (w : Written) {p : ParameterDescription} (h : ofWritten? w = some p) :
    ∀ v ∈ p.dataValues, v.Kept := by
  cases w with
  | object members => exact kept_of_ofMembers? members h ⟨nofun, nofun⟩
  | array items => exact kept_of_ofItems? items h
  | _ => cases h

/-- The members of a parameter keep what has been read as data. -/
theorem kept_of_ofMembers? (members : List (List Piece × Written)) {draft : Draft}
    {p : ParameterDescription} (h : ofMembers? draft members = some p) (hdraft : draft.Kept) :
    ∀ v ∈ p.dataValues, v.Kept := by
  cases members with
  | nil =>
      cases h
      exact forall_dataValues.2 ⟨hdraft.data, hdraft.parameters⟩
  | cons m rest =>
      obtain ⟨next, hnext, h⟩ := Option.bind_eq_some_iff.1 h
      exact kept_of_ofMembers? rest h (kept_of_member? m hnext hdraft)

theorem kept_of_member? (m : List Piece × Written) {draft next : Draft}
    (h : member? draft m = some next) (hdraft : draft.Kept) : next.Kept := by
  obtain ⟨k, w⟩ := m
  obtain ⟨name, -, h⟩ := Option.bind_eq_some_iff.1 h
  -- by the name of the field
  split at h
  case h_1 | h_2 | h_4 =>
    obtain ⟨_, -, rfl⟩ := exists_of_once h
    exact ⟨hdraft.data, hdraft.parameters⟩
  case h_3 =>
    obtain ⟨data, hdata, rfl⟩ := exists_of_once h
    exact ⟨kept_of_nullable? hdata, hdraft.parameters⟩
  case h_5 =>
    obtain ⟨ps, hps, rfl⟩ := exists_of_once h
    exact ⟨hdraft.data, kept_of_block? w hps⟩
  case h_6 =>
    cases h
    exact hdraft

theorem kept_of_ofItems? (items : List Written) {p : ParameterDescription}
    (h : ofItems? items = some p) : ∀ v ∈ p.dataValues, v.Kept := by
  -- one case for each number of items, as what is missing has its default
  match items with
  | [] =>
      cases h
      exact kept_of_missing rfl rfl
  | [n] =>
      obtain ⟨_, -, h⟩ := Option.bind_eq_some_iff.1 h
      cases h
      exact kept_of_missing rfl rfl
  | [n, t] =>
      obtain ⟨_, -, h⟩ := Option.bind_eq_some_iff.1 h
      obtain ⟨_, -, h⟩ := Option.bind_eq_some_iff.1 h
      cases h
      exact kept_of_missing rfl rfl
  | [n, t, d] =>
      obtain ⟨_, -, h⟩ := Option.bind_eq_some_iff.1 h
      obtain ⟨_, -, h⟩ := Option.bind_eq_some_iff.1 h
      obtain ⟨data, hdata, h⟩ := Option.bind_eq_some_iff.1 h
      cases h
      exact forall_dataValues.2 ⟨kept_of_nullable? hdata, nofun⟩
  | [n, t, d, r] =>
      obtain ⟨_, -, h⟩ := Option.bind_eq_some_iff.1 h
      obtain ⟨_, -, h⟩ := Option.bind_eq_some_iff.1 h
      obtain ⟨data, hdata, h⟩ := Option.bind_eq_some_iff.1 h
      obtain ⟨_, -, h⟩ := Option.bind_eq_some_iff.1 h
      cases h
      exact forall_dataValues.2 ⟨kept_of_nullable? hdata, nofun⟩
  | [n, t, d, r, b] =>
      obtain ⟨_, -, h⟩ := Option.bind_eq_some_iff.1 h
      obtain ⟨_, -, h⟩ := Option.bind_eq_some_iff.1 h
      obtain ⟨data, hdata, h⟩ := Option.bind_eq_some_iff.1 h
      obtain ⟨_, -, h⟩ := Option.bind_eq_some_iff.1 h
      obtain ⟨ps, hps, h⟩ := Option.bind_eq_some_iff.1 h
      cases h
      exact forall_dataValues.2 ⟨kept_of_nullable? hdata, kept_of_block? b hps⟩

theorem kept_of_block? (w : Written) {ps : List (String × ParameterDescription)}
    (h : block? w = some ps) : ∀ v ∈ entriesData ps, v.Kept := by
  cases w with
  | object members => exact kept_of_entries? members h
  | _ => cases h

/-- All data of keyed parameters that have been read is kept. -/
theorem kept_of_entries? (members : List (List Piece × Written))
    {ps : List (String × ParameterDescription)} (h : entries? members = some ps) :
    ∀ v ∈ entriesData ps, v.Kept := by
  cases members with
  | nil =>
      cases h
      simp [entriesData]
  | cons m rest =>
      obtain ⟨p, hp, h⟩ := Option.bind_eq_some_iff.1 h
      obtain ⟨ps', hps', h⟩ := Option.bind_eq_some_iff.1 h
      cases h
      exact List.forall_mem_append.2 ⟨kept_of_keyed m hp, kept_of_entries? rest hps'⟩

theorem kept_of_keyed (m : List Piece × Written) {e : String × ParameterDescription}
    (h : entry? m = some e) : ∀ v ∈ entryData e, v.Kept := by
  obtain ⟨k, w⟩ := m
  obtain ⟨key, -, h⟩ := Option.bind_eq_some_iff.1 h
  obtain ⟨p, hp, h⟩ := Option.bind_eq_some_iff.1 h
  cases h
  exact kept_of_ofWritten? w hp
end

/-! ## Writing -/

-- along a parameter and those inside it
mutual
/-- A parameter is read back from what is printed. -/
theorem ofWritten?_document (p : ParameterDescription)
    (h : ∀ v ∈ p.dataValues, v.Kept ∧ v.whole = true) :
    ofWritten? p.toJson.document = some p := by
  obtain ⟨name, type, data, repeats, parameters⟩ := p
  obtain ⟨hdata, hparameters⟩ := forall_dataValues.1 h
  have hread : ((data.map fun v => v).getD .null).document.nullable? Written.value? =
      some data :=
    Written.nullable?_document fun v hv =>
      ⟨(hdata v hv).1.present, Json.value?_document v (hdata v hv).2 (hdata v hv).1.tidy⟩
  rw [Option.map_id_fun', id_eq] at hread
  have hblock := entries?_document parameters hparameters
  -- every field is read into a draft that has not got it; the keys are left as printed
  simp [-String.reduceToList, toJson, Json.document, Json.membersDocument, Json.memberDocument,
    ofWritten?, ofMembers?, member?, Json.decode?_quoted, Written.nullable?_ofString?, hread,
    Written.bool?, block?, hblock, Draft.finish]

/-- Keyed parameters are read back from what is printed. -/
theorem entries?_document (ps : List (String × ParameterDescription))
    (h : ∀ v ∈ entriesData ps, v.Kept ∧ v.whole = true) :
    entries? (Json.membersDocument (entriesJson ps)) = some ps := by
  cases ps with
  | nil => rfl
  | cons p rest =>
      obtain ⟨hfirst, hrest⟩ := List.forall_mem_append.1 h
      simp [entriesJson, Json.membersDocument, entries?, entry?_document p hfirst,
        entries?_document rest hrest]

theorem entry?_document (e : String × ParameterDescription)
    (h : ∀ v ∈ entryData e, v.Kept ∧ v.whole = true) :
    entry? (Json.memberDocument (entryJson e)) = some e := by
  obtain ⟨k, p⟩ := e
  simp [entryJson, Json.memberDocument, entry?, Json.decode?_quoted, ofWritten?_document p h]
end

mutual
/-- What is written holds no numbers but those of the data. -/
theorem whole_toJson (p : ParameterDescription) (h : ∀ v ∈ p.dataValues, v.whole = true) :
    p.toJson.whole = true := by
  obtain ⟨name, type, data, repeats, parameters⟩ := p
  obtain ⟨hdata, hparameters⟩ := forall_dataValues.1 h
  have hnull : (data.getD .null).whole = true := by
    cases data with
    | none => rfl
    | some v => exact hdata v rfl
  have hblock := whole_entriesJson parameters hparameters
  simp [toJson, Json.whole, Json.wholeMembers, Json.wholeMember, Json.whole_ofString?, hnull,
    hblock]

theorem whole_entriesJson (ps : List (String × ParameterDescription))
    (h : ∀ v ∈ entriesData ps, v.whole = true) : Json.wholeMembers (entriesJson ps) = true := by
  cases ps with
  | nil => rfl
  | cons p rest =>
      obtain ⟨hfirst, hrest⟩ := List.forall_mem_append.1 h
      rw [entriesJson, Json.wholeMembers, whole_entryJson p hfirst, whole_entriesJson rest hrest]
      rfl

theorem whole_entryJson (e : String × ParameterDescription)
    (h : ∀ v ∈ entryData e, v.whole = true) : Json.wholeMember (entryJson e) = true := by
  obtain ⟨k, p⟩ := e
  exact whole_toJson p h
end

end ParameterDescription

/-! ## Components -/

section Components

open ParameterDescription (entriesData kept_of_block?)

def PayloadDescription.dataValues (p : PayloadDescription) : List Json :=
  entriesData p.parameters

def ComponentDescription.dataValues (c : ComponentDescription) : List Json :=
  (c.payload.map PayloadDescription.dataValues).getD [] ++ entriesData c.parameters

theorem PayloadDescription.kept_of_ofWritten? {w : Written} {p : PayloadDescription}
    (h : ofWritten? w = some p) : ∀ v ∈ p.dataValues, v.Kept := by
  obtain ⟨f, -, h⟩ := Option.bind_eq_some_iff.1 h
  obtain ⟨name, -, h⟩ := Option.bind_eq_some_iff.1 h
  obtain ⟨ps, hps, h⟩ := Option.bind_eq_some_iff.1 h
  cases h
  exact Json.Fields.of_defaulted (p := fun ps => ∀ v ∈ entriesData ps, v.Kept) hps nofun
    fun w _ => kept_of_block? w

theorem ComponentDescription.forall_dataValues {c : ComponentDescription} {P : Json → Prop} :
    (∀ v ∈ c.dataValues, P v) ↔
      (∀ p ∈ c.payload, ∀ v ∈ p.dataValues, P v) ∧ ∀ v ∈ entriesData c.parameters, P v := by
  rw [dataValues, List.forall_mem_append]
  cases c.payload <;> simp

/-- All data of a component that has been read is kept when it is written. -/
theorem ComponentDescription.kept_of_ofWritten? {w : Written} {c : ComponentDescription}
    (h : ofWritten? w = some c) : ∀ v ∈ c.dataValues, v.Kept := by
  obtain ⟨f, -, h⟩ := Option.bind_eq_some_iff.1 h
  obtain ⟨id, -, h⟩ := Option.bind_eq_some_iff.1 h
  obtain ⟨name, -, h⟩ := Option.bind_eq_some_iff.1 h
  obtain ⟨type, -, h⟩ := Option.bind_eq_some_iff.1 h
  obtain ⟨inputs, -, h⟩ := Option.bind_eq_some_iff.1 h
  obtain ⟨outputs, -, h⟩ := Option.bind_eq_some_iff.1 h
  obtain ⟨ps, hps, h⟩ := Option.bind_eq_some_iff.1 h
  obtain ⟨payload, hpayload, h⟩ := Option.bind_eq_some_iff.1 h
  obtain ⟨filter, -, h⟩ := Option.bind_eq_some_iff.1 h
  cases h
  -- the data of a component are those of its payload and of its parameters
  refine forall_dataValues.2 ⟨?_, ?_⟩
  · have hread : ∀ (w : Written) (o : Option PayloadDescription),
        w.nullable? PayloadDescription.ofWritten? = some o →
          ∀ p ∈ o, ∀ v ∈ p.dataValues, v.Kept := by
      intro w o ho
      exact Written.of_nullable? ho fun _ _ => PayloadDescription.kept_of_ofWritten?
    exact Json.Fields.of_defaulted
      (p := fun o : Option PayloadDescription => ∀ p ∈ o, ∀ v ∈ p.dataValues, v.Kept) hpayload nofun
      hread
  · exact Json.Fields.of_defaulted (p := fun ps => ∀ v ∈ entriesData ps, v.Kept) hps nofun
      fun w _ => kept_of_block? w

theorem Filter.ofWritten?_document (f : Filter) : ofWritten? f.toJson.document = some f := by
  obtain ⟨expression, dialect⟩ := f
  rw [ofWritten?, toJson, Written.fields?_document (by simp) (by simp)]
  cases dialect <;>
    simp [Json.Fields.required, Json.Fields.defaulted, List.lookup_cons, Written.string?_document,
      Written.choice?_document, Dialect.word, Dialect.ofWord?]

/-- A payload is read back from what is printed. -/
theorem PayloadDescription.ofWritten?_document (p : PayloadDescription)
    (h : ∀ v ∈ p.dataValues, v.Kept ∧ v.whole = true) : ofWritten? p.toJson.document = some p := by
  have hblock : ParameterDescription.block?
      (Json.object (ParameterDescription.entriesJson p.parameters)).document = some p.parameters :=
    ParameterDescription.entries?_document p.parameters h
  rw [ofWritten?, toJson, Written.fields?_document (by simp) (by simp)]
  simp [Json.Fields.defaulted, List.lookup_cons, Written.nullable?_ofString?, hblock]

/-- A component is read back from what is printed. -/
theorem ComponentDescription.ofWritten?_document (c : ComponentDescription)
    (h : ∀ v ∈ c.dataValues, v.Kept ∧ v.whole = true) : ofWritten? c.toJson.document = some c := by
  obtain ⟨hpayload, hparameters⟩ := forall_dataValues.1 h
  -- each part is read back on its own, the record is put together from them
  have hblock : ParameterDescription.block?
      (Json.object (ParameterDescription.entriesJson c.parameters)).document = some c.parameters :=
    ParameterDescription.entries?_document c.parameters hparameters
  have hwritten : ((c.payload.map PayloadDescription.toJson).getD .null).document.nullable?
      PayloadDescription.ofWritten? = some c.payload :=
    Written.nullable?_document fun p hp =>
      ⟨nofun, PayloadDescription.ofWritten?_document p (hpayload p hp)⟩
  have hfilter : ((c.filter.map Filter.toJson).getD .null).document.nullable?
      Filter.ofWritten? = some c.filter :=
    Written.nullable?_document fun f _ => ⟨nofun, Filter.ofWritten?_document f⟩
  have hinputs : ∀ ss : List String, (Json.ofStrings ss).document.list? Written.string? = some ss :=
    fun ss => Written.list?_document fun s _ => Written.string?_document s
  rw [ofWritten?, toJson, Written.fields?_document (by simp) (by simp)]
  simp [Json.Fields.required, Json.Fields.defaulted, List.lookup_cons, Written.string?_document,
    Written.nullable?_ofString?, hinputs, hblock, hwritten, hfilter]

theorem Filter.whole_toJson (f : Filter) : f.toJson.whole = true := rfl

theorem PayloadDescription.whole_toJson (p : PayloadDescription)
    (h : ∀ v ∈ p.dataValues, v.whole = true) : p.toJson.whole = true := by
  have hblock := ParameterDescription.whole_entriesJson p.parameters h
  simp [toJson, Json.whole, Json.wholeMembers, Json.wholeMember, Json.whole_ofString?, hblock]

theorem ComponentDescription.whole_toJson (c : ComponentDescription)
    (h : ∀ v ∈ c.dataValues, v.whole = true) : c.toJson.whole = true := by
  obtain ⟨hpayload, hparameters⟩ := forall_dataValues.1 h
  -- each part is whole on its own
  have hblock := ParameterDescription.whole_entriesJson c.parameters hparameters
  have hstrings : ∀ ss : List String, (Json.ofStrings ss).whole = true := by
    intro ss
    refine Json.wholeItems_iff.2 fun v hv => ?_
    obtain ⟨s, -, rfl⟩ := List.mem_map.1 hv
    rfl
  have hwritten : ((c.payload.map PayloadDescription.toJson).getD .null).whole = true :=
    Json.whole_getD_null fun p hp => PayloadDescription.whole_toJson p (hpayload p hp)
  have hfilter : ((c.filter.map Filter.toJson).getD .null).whole = true :=
    Json.whole_getD_null fun f _ => Filter.whole_toJson f
  simp [toJson, Json.whole, Json.wholeMembers, Json.wholeMember, Json.whole_ofString?, hstrings,
    hblock, hwritten, hfilter]

end Components

/-! ## Descriptions of jobs -/

namespace Job.Description

variable {s : String} {d : Job.Description}

/-- The data of all parameters of a description. -/
def dataValues (d : Job.Description) : List Json :=
  d.components.flatMap ComponentDescription.dataValues

theorem forall_dataValues {P : Json → Prop} :
    (∀ v ∈ d.dataValues, P v) ↔ ∀ c ∈ d.components, ∀ v ∈ c.dataValues, P v := by
  simp only [dataValues, List.forall_mem_flatMap]

/-- Data that is read from a text is read as it is written. -/
theorem kept_of_ofText? (h : ofText? s = some d) : ∀ v ∈ d.dataValues, v.Kept := by
  obtain ⟨w, -, h⟩ := Option.bind_eq_some_iff.1 h
  obtain ⟨f, -, h⟩ := Option.bind_eq_some_iff.1 h
  obtain ⟨id, -, h⟩ := Option.bind_eq_some_iff.1 h
  obtain ⟨name, -, h⟩ := Option.bind_eq_some_iff.1 h
  obtain ⟨vars, -, h⟩ := Option.bind_eq_some_iff.1 h
  obtain ⟨components, hcomponents, h⟩ := Option.bind_eq_some_iff.1 h
  cases h
  -- what a list of components holds comes from one of them
  have hread : ∀ (w : Written) (cs : List ComponentDescription),
      w.list? ComponentDescription.ofWritten? = some cs →
        ∀ c ∈ cs, ∀ v ∈ c.dataValues, v.Kept := by
    intro w cs hcs
    exact Written.of_list? hcs fun _ _ => ComponentDescription.kept_of_ofWritten?
  exact forall_dataValues.2 (Json.Fields.of_required
    (p := fun cs : List ComponentDescription => ∀ c ∈ cs, ∀ v ∈ c.dataValues, v.Kept) hcomponents
    hread)

/-- Variables are read back from what is printed. -/
theorem vars?_document (vs : OrderedMap String String) :
    Job.vars? (Job.variablesJson vs).document = some vs := by
  have hentries : (Job.variablesJson vs).document.entries? Written.string? = some vs.toList :=
    Written.entries?_document fun e _ => Written.string?_document e.2
  rw [Job.vars?, hentries, Option.map_some, OrderedMap.ofList_toList]

/-- A description is read back from what is printed. -/
theorem ofWritten?_document (h : ∀ v ∈ d.dataValues, v.Kept ∧ v.whole = true) :
    ofWritten? d.toJson.document = some d := by
  have hcomponents : (Json.array (d.components.map ComponentDescription.toJson)).document.list?
      ComponentDescription.ofWritten? = some d.components :=
    Written.list?_document fun c hc =>
      ComponentDescription.ofWritten?_document c (forall_dataValues.1 h c hc)
  rw [ofWritten?, toJson, Written.fields?_document (by simp) (by simp)]
  simp [Json.Fields.required, Json.Fields.defaulted, List.lookup_cons, Written.string?_document,
    Written.nullable?_ofString?, vars?_document, hcomponents]

theorem whole_toJson (h : ∀ v ∈ d.dataValues, v.whole = true) : d.toJson.whole = true := by
  have hvars : (Job.variablesJson d.vars).whole = true := by
    refine Json.wholeMembers_iff.2 fun m hm => ?_
    obtain ⟨v, -, rfl⟩ := List.mem_map.1 hm
    rfl
  have hcomponents : Json.wholeItems (d.components.map ComponentDescription.toJson) = true := by
    refine Json.wholeItems_iff.2 fun v hv => ?_
    obtain ⟨c, hc, rfl⟩ := List.mem_map.1 hv
    exact ComponentDescription.whole_toJson c (forall_dataValues.1 h c hc)
  simp [toJson, Json.whole, Json.wholeMembers, Json.wholeMember, Json.whole_ofString?, hvars,
    hcomponents]

/-- A printed value is read as its document. -/
theorem ofText?_compact {v : Json} (hwhole : v.whole = true) (hdepth : v.depth ≤ Json.maxDepth) :
    ofText? v.compact = ofWritten? v.document := by
  rw [ofText?, Json.ofText?_compact hwhole hdepth, Option.bind_some]

/-- A description that has been read from any text is read again from the text that it is written as,
with its components, their inputs and outputs, its variables and all parameters, repeated keys
included, in the same order; and it is written as the same text again. -/
theorem reads_saved (h : ofText? s = some d) (hwhole : ∀ v ∈ d.dataValues, v.whole = true)
    (hdepth : d.toJson.depth ≤ Json.maxDepth) :
    ofText? d.toJson.compact = some d ∧
      ∀ d', ofText? d.toJson.compact = some d' → d'.toJson.compact = d.toJson.compact := by
  have hread : ofText? d.toJson.compact = some d := by
    calc ofText? d.toJson.compact
        = ofWritten? d.toJson.document := ofText?_compact (whole_toJson hwhole) hdepth
      _ = some d := ofWritten?_document fun v hv => ⟨kept_of_ofText? h v hv, hwhole v hv⟩
  refine ⟨hread, fun d' h' => ?_⟩
  rw [Option.some.inj (hread.symm.trans h')]

/-- A description with few fields, in an order of its own, and with repeated keys. -/
def sketch : Json :=
  .object [("note", .null), ("components", .array
    [.object [("type", .string "source"), ("id", .string "a"), ("parameters", .object
      [("p", .object [("data", .array [.number (.integer 1), .null])]),
       ("p", .object [("parameters", .object
         [("q", .object []), ("q", .object [("data", .string "x")])])])])]])]

def sketched : Job.Description :=
  ⟨none, "", .empty,
    [⟨"a", none, "source", [], [],
      [("p", ⟨none, none, some (.array [.number (.integer 1), .null]), false, []⟩),
        ("p", ⟨none, none, none, false,
          [("q", ⟨none, none, none, false, []⟩),
            ("q", ⟨none, none, some (.string "x"), false, []⟩)]⟩)], none, none⟩]⟩

/-- A description with few fields, in an order of its own and with repeated keys, is read back after
it has been written. -/
theorem reads_saved_sketch :
    ofText? sketch.compact = some sketched ∧ sketch.compact ≠ sketched.toJson.compact ∧
      ofText? sketched.toJson.compact = some sketched := by
  have hread : ofText? sketch.compact = some sketched := by
    rw [ofText?_compact (by decide) (by decide)]
    rfl
  have hwhole : ∀ v ∈ sketched.dataValues, v.whole = true := by decide
  have hdepth : sketched.toJson.depth ≤ Json.maxDepth := by decide
  exact ⟨hread, by decide +kernel, (reads_saved hread hwhole hdepth).1⟩

end Job.Description
end Recast
