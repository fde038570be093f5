import Recast.Decoder.Standard
import Recast.Proofs.Result
import Recast.Proofs.Stream.Protocol

/-!
# Whole — what decoders hand on

An *inventory* says what a document holds before anything of it is handed on: the events of each
record or what is wrong with it, or what is wrong with the document itself.  A decoder hands on the
records in front of the first faulty one, each of them whole, and nothing of the others:
`DecoderOptions.decode_gives`.
-/

namespace Recast

open Position (Level level_iff)

/-! ## Records one after the other -/

/-- What a document holds: in turn the events of each record or what is wrong with it, unless the
document itself cannot be read. -/
abbrev Inventory := Except DecodeError (List (Except DecodeError (List Event)))

/-- What is handed on of a document. -/
inductive Inventory.Gives : Inventory → Decoded → Prop where
  /-- Nothing, if the document cannot be read. -/
  | unread (e : DecodeError) : Gives (.error e) ⟨[], .error e⟩
  /-- All records, if each of them can be read, and their number. -/
  | whole (qs : List WholeRecord) :
      Gives (.ok (qs.map fun q => .ok q.events)) ⟨qs.flatMap WholeRecord.events, .ok qs.length⟩
  /-- The records in front of the first one that cannot be read, and what is wrong with this one. -/
  | cut (qs : List WholeRecord) (e : DecodeError) (rest : List (Except DecodeError (List Event))) :
      Gives (.ok (qs.map (fun q => .ok q.events) ++ .error e :: rest))
        ⟨qs.flatMap WholeRecord.events, .error e⟩

/-- Read items as records, each by its number, whatever becomes of the others. -/
def readings {α : Type u} (read : Nat → α → Except DecodeError (List Event)) (items : List α) :
    List (Except DecodeError (List Event)) :=
  (items.zipIdx 1).map fun p => read p.2 p.1

section Records

variable {α : Type u} {read : Nat → α → Except DecodeError (List Event)}

/-- Items that are read as whole records are handed on up to the first one that cannot be read. -/
theorem exists_ofRecordsFrom
    (hread : ∀ number a es, read number a = .ok es → ∃ q : WholeRecord, es = q.events)
    (items : List α) (count : Nat) :
    ∃ qs : List WholeRecord,
      ((items.zipIdx (count + 1)).map (fun p => read p.2 p.1) =
          qs.map (fun q => .ok q.events) ∧
        Decoded.ofRecordsFrom read count items =
          ⟨qs.flatMap WholeRecord.events, .ok (count + qs.length)⟩) ∨
      ∃ e rest,
        (items.zipIdx (count + 1)).map (fun p => read p.2 p.1) =
          qs.map (fun q => .ok q.events) ++ .error e :: rest ∧
        Decoded.ofRecordsFrom read count items = ⟨qs.flatMap WholeRecord.events, .error e⟩ := by
  induction items generalizing count with
  | nil => exact ⟨[], .inl ⟨rfl, rfl⟩⟩
  | cons a rest ih =>
      rw [List.zipIdx_cons, List.map_cons, Decoded.ofRecordsFrom]
      cases hfirst : read (count + 1) a with
      | error e => exact ⟨[], .inr ⟨e, _, rfl, rfl⟩⟩
      | ok es =>
          rcases hread _ _ _ hfirst with ⟨q, rfl⟩
          -- the first fault lies behind this record, or there is none
          rcases ih (count + 1) with ⟨qs, ⟨hreadings, hdecoded⟩ | ⟨e, behind, hreadings, hdecoded⟩⟩
          · refine ⟨q :: qs, .inl ⟨?_, ?_⟩⟩
            · simp only [hreadings, List.map_cons]
            · simp only [hdecoded, List.flatMap_cons, List.length_cons, Nat.add_assoc,
                Nat.add_comm 1]
          · refine ⟨q :: qs, .inr ⟨e, behind, ?_, ?_⟩⟩
            · simp only [hreadings, List.map_cons, List.cons_append]
            · simp only [hdecoded, List.flatMap_cons]

/-- Records that are read one after the other are handed on up to the first fault. -/
theorem Inventory.gives_ofRecords
    (hread : ∀ number a es, read number a = .ok es → ∃ q : WholeRecord, es = q.events)
    (items : List α) : Gives (.ok (readings read items)) (Decoded.ofRecords read items) := by
  rcases exists_ofRecordsFrom hread items 0 with
    ⟨qs, ⟨hreadings, hdecoded⟩ | ⟨e, rest, hreadings, hdecoded⟩⟩
  · rw [Nat.zero_add] at hreadings hdecoded
    rw [readings, hreadings, Decoded.ofRecords, hdecoded]
    exact .whole qs
  · rw [Nat.zero_add] at hreadings
    rw [readings, hreadings, Decoded.ofRecords, hdecoded]
    exact .cut qs e rest

end Records

/-- Events between the start and the end of a record, with every entity closed, make it whole. -/
theorem exists_whole {es : List Event} (h : Level es) (id : String) :
    ∃ q : WholeRecord, .startRecord id :: (es ++ [.endRecord]) = q.events := by
  rcases level_iff.1 h with ⟨c, rfl⟩
  exact ⟨⟨id, c⟩, rfl⟩

/-! ## Json -/

namespace Json

-- the cases are those of the events: values, the items of arrays, and members
mutual
/-- The events of a value leave the same entities open. -/
theorem level_value (key : String) (v : Json) : Level (valueEvents key v) := by
  cases v with
  | null => exact .nil
  | array items => exact level_items key items
  | object members =>
      rw [valueEvents]
      exact (level_members members).entity key
  | string s => exact .literal key s
  | number n => exact .literal key _
  | bool b => exact .literal key _

theorem level_items (key : String) (items : List Json) : Level (itemsEvents key items) := by
  cases items with
  | nil => exact .nil
  | cons v rest =>
      rw [itemsEvents]
      exact (level_value key v).append (level_items key rest)

/-- The events of members leave the same entities open. -/
theorem level_members (members : List (String × Json)) : Level (membersEvents members) := by
  cases members with
  | nil => exact .nil
  | cons m rest =>
      rw [membersEvents]
      exact (level_member m).append (level_members rest)

theorem level_member (m : String × Json) : Level (memberEvents m) := by
  obtain ⟨key, v⟩ := m
  rw [memberEvents]
  exact level_value key v
end

end Json

namespace JsonOptions

def inventory (o : JsonOptions) (input : String) : Inventory :=
  match Json.parse? input with
  | none => .error (fault .json)
  | some document =>
      match root o document with
      | .error e => .error e
      | .ok (.array items) => .ok (readings o.record items)
      | .ok (.object members) => .ok (readings o.record [.object members])
      | .ok _ => .error (fault .noRecords)

theorem whole_record (o : JsonOptions) (number : Nat) (v : Json) (es : List Event)
    (h : o.record number v = .ok es) : ∃ q : WholeRecord, es = q.events := by
  cases v with
  | object members =>
      cases h
      exact exists_whole (Json.level_members members) _
  | _ => cases h

theorem decode_gives (o : JsonOptions) (input : String) :
    (o.inventory input).Gives (o.decode input) := by
  unfold inventory decode
  cases Json.parse? input with
  | none => exact .unread _
  | some document =>
      simp only
      cases root o document with
      | error e => exact .unread e
      | ok part =>
          cases part with
          | array items => exact Inventory.gives_ofRecords o.whole_record items
          | object members => exact Inventory.gives_ofRecords o.whole_record _
          | _ => exact .unread _

end JsonOptions

/-! ## Delimited text -/

namespace CsvOptions

def rowsAbove (o : CsvOptions) : Nat :=
  if o.hasHeaders then 1 else 0

def inventory (o : CsvOptions) (input : String) : Inventory :=
  let rows := Delimited.rows o.delimiter (Utf8.encode input)
  let width := (rows.head?.map fun r => r.fields.length).getD 0
  match splitHeader o rows with
  | .error e => .error e
  | .ok (headers, below) =>
      match idIndex o headers with
      | .error e => .error e
      | .ok i => .ok (readings (record headers i o.rowsAbove width) below)

/-- The cells of a row are literals. -/
theorem level_cells (headers : List String) (cells : List String) :
    Level (cells.zipIdx.filterMap fun (cell, column) =>
      if cell = "" then none else some (.literal (columnName headers column) cell)) := by
  rw [List.filterMap_eq_flatMap_toList]
  apply Level.flatMap
  rintro ⟨cell, column⟩ -
  by_cases hcell : cell = ""
  · simp only [if_pos hcell]
    exact .nil
  · simp only [if_neg hcell]
    exact .literal _ _

theorem whole_record (headers : List String) (i : Option Nat) (above width number : Nat)
    (row : Delimited.Row) (es : List Event) (h : record headers i above width number row = .ok es) :
    ∃ q : WholeRecord, es = q.events := by
  unfold record at h
  by_cases hwidth : row.fields.length ≠ width
  · simp only [if_pos hwidth] at h
    cases h
  · simp only [if_neg hwidth] at h
    rcases bind_eq_ok.1 h with ⟨cells, -, hcells⟩
    cases hcells
    exact exists_whole (level_cells headers cells) _

theorem decode_gives (o : CsvOptions) (input : String) :
    (o.inventory input).Gives (o.decode input) := by
  unfold inventory decode
  dsimp only
  cases splitHeader o (Delimited.rows o.delimiter (Utf8.encode input)) with
  | error e => exact .unread e
  | ok split =>
      simp only
      cases idIndex o split.1 with
      | error e => exact .unread e
      | ok i => exact Inventory.gives_ofRecords (whole_record _ _ _ _) split.2

end CsvOptions

/-! ## Harvests -/

namespace OaiOptions

def inventory (o : OaiOptions) (input : String) : Inventory :=
  match Markup.Node.ofText? input with
  | none => .error (.malformed "oai" .xml)
  | some root => .ok (readings o.record (root.labelled o.recordTag))

theorem level_within {es : List Event} (h : Level es) (names : List String) :
    Level (within names es) := by
  induction names with
  | nil => simpa [within] using h
  | cons name rest ih =>
      -- the last of the ends closes the outermost entity
      have hends : Event.endEntity :: rest.map (fun _ => Event.endEntity) =
          rest.map (fun _ => Event.endEntity) ++ [.endEntity] := by
        rw [List.map_const', ← List.replicate_succ, List.replicate_succ']
      have hwithin : within (name :: rest) es =
          .startEntity name :: (within rest es ++ [.endEntity]) := by
        simp only [within, List.map_cons, List.cons_append, List.append_assoc, hends]
      rw [hwithin]
      exact ih.entity name

/-- The events of a section leave the same entities open. -/
theorem level_section (path : String) (n : Markup.Node) : Level (sectionEvents path n) := by
  apply level_within
  rw [List.map_eq_flatMap]
  exact Level.flatMap fun e _ => .literal _ _

theorem whole_record (o : OaiOptions) (number : Nat) (n : Markup.Node) (es : List Event)
    (h : o.record number n = .ok es) : ∃ q : WholeRecord, es = q.events := by
  rcases bind_eq_ok.1 h with ⟨found, -, hfound⟩
  cases hfound
  have hsections : Level (found.flatMap fun s => sectionEvents s.1 s.2) :=
    Level.flatMap fun s _ => level_section s.1 s.2
  exact exists_whole (level_within hsections _) _

theorem decode_gives (o : OaiOptions) (input : String) :
    (o.inventory input).Gives (o.decode input) := by
  unfold inventory decode
  cases Markup.Node.ofText? input with
  | none => exact .unread _
  | some root => exact Inventory.gives_ofRecords o.whole_record _

end OaiOptions

/-! ## All decoders -/

inductive Format where
  | oai
  | csv
  | json
  deriving DecidableEq, Repr

namespace DecoderOptions

def decoderFor (o : DecoderOptions) : Format → Decoder
  | .oai => o.oai.decoder
  | .csv => o.csv.decoder
  | .json => o.json.decoder

def inventory (o : DecoderOptions) : Format → String → Inventory
  | .oai => o.oai.inventory
  | .csv => o.csv.inventory
  | .json => o.json.inventory

def decoders (o : DecoderOptions) : List Decoder :=
  [o.oai.decoder, o.csv.decoder, o.json.decoder]

/-- Every decoder is one for a format. -/
theorem exists_format {o : DecoderOptions} {d : Decoder} (hd : d ∈ o.decoders) :
    ∃ f, d = o.decoderFor f := by
  simp only [decoders, List.mem_cons, List.not_mem_nil, or_false] at hd
  rcases hd with rfl | rfl | rfl
  · exact ⟨.oai, rfl⟩
  · exact ⟨.csv, rfl⟩
  · exact ⟨.json, rfl⟩

/-- What a document holds is handed on up to the first fault, one whole record after the other. -/
theorem decode_gives (o : DecoderOptions) (f : Format) (input : String) :
    (o.inventory f input).Gives ((o.decoderFor f).decode input) := by
  cases f with
  | oai => exact o.oai.decode_gives input
  | csv => exact o.csv.decode_gives input
  | json => exact o.json.decode_gives input

/-- Every decoder hands on whole records, whatever the document. -/
theorem decode_whole {o : DecoderOptions} {d : Decoder} (hd : d ∈ o.decoders) (input : String) :
    ∃ qs : List WholeRecord, (d.decode input).events = qs.flatMap WholeRecord.events := by
  rcases exists_format hd with ⟨f, rfl⟩
  have hgives := o.decode_gives f input
  generalize o.inventory f input = held, (o.decoderFor f).decode input = decoded at hgives
  cases hgives with
  | unread e => exact ⟨[], rfl⟩
  | whole qs => exact ⟨qs, rfl⟩
  | cut qs e rest => exact ⟨qs, rfl⟩

end DecoderOptions
end Recast
