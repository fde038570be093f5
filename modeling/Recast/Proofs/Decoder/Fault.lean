import Recast.Proofs.Decoder.Whole

/-!
# Fault — where decoding stops

What is wrong with a document lies in one of its records or in the document itself, and the fault
tells which: a section that is missing, a row of a width of its own, an item that is no object name
their record, counted from one.

Main statement: `DecoderOptions.decode_records`, a decoder hands on whole records, those in front of
the record that its fault names, and none if the fault lies in the document.
-/

namespace Recast

/-! ## The number of records -/

def Decoded.started (d : Decoded) : Nat :=
  d.events.countP fun e => e.kind = .startRecord

theorem countP_record (q : WholeRecord) :
    q.events.countP (fun e => e.kind = .startRecord) = 1 := by
  have hcontent : q.content.events.countP (fun e => e.kind = .startRecord) = 0 := by
    apply List.countP_eq_zero.2
    intro e he hkind
    cases e with
    | startRecord id => exact (Position.level_content q.content).startRecord_not_mem id he
    | _ => simp [Event.kind] at hkind
  calc q.events.countP (fun e => e.kind = .startRecord)
      = (q.content.events ++ [Event.endRecord]).countP (fun e => e.kind = .startRecord) + 1 :=
        List.countP_cons_of_pos rfl
    _ = 0 + [Event.endRecord].countP (fun e => e.kind = .startRecord) + 1 := by
        rw [List.countP_append, hcontent]
    _ = 1 := rfl

/-- Whole records that are handed on have been started. -/
theorem started_records (qs : List WholeRecord) (result : Except DecodeError Nat) :
    (Decoded.mk (qs.flatMap WholeRecord.events) result).started = qs.length := by
  unfold Decoded.started
  induction qs with
  | nil => rfl
  | cons q rest ih =>
      calc ((q :: rest).flatMap WholeRecord.events).countP (fun e => e.kind = .startRecord)
          = q.events.countP (fun e => e.kind = .startRecord) +
              (rest.flatMap WholeRecord.events).countP (fun e => e.kind = .startRecord) := by
            rw [List.flatMap_cons, List.countP_append]
        _ = 1 + rest.length := by rw [countP_record, ih]
        _ = (q :: rest).length := Nat.add_comm _ _

/-- Items are read by their numbers, counted from one. -/
theorem getElem?_readings {α : Type u} (read : Nat → α → Except DecodeError (List Event))
    (items : List α) (i : Nat) :
    (readings read items)[i]? = items[i]?.map fun a => read (i + 1) a := by
  simp [readings, List.getElem?_zipIdx, Function.comp_def, Nat.add_comm 1]

/-! ## Faults by format -/

/-- What may be wrong with a row: its width differs from that of the first one, or a field of it
is no text. -/
def CsvOptions.RowFault (row : Nat) (e : DecodeError) : Prop :=
  (∃ found expected, found ≠ expected ∧ e = fault (.ragged row found expected)) ∨
    ∃ line field byte index, e = fault (.noText row line field byte index)

/-- A fault of a row is the fault of no other one. -/
theorem CsvOptions.RowFault.unique {row row' : Nat} {e : DecodeError} (h : RowFault row e)
    (h' : RowFault row' e) : row = row' := by
  rcases h with ⟨found, expected, -, rfl⟩ | ⟨line, field, byte, index, rfl⟩
  · rcases h' with ⟨_, _, -, hsame⟩ | ⟨_, _, _, _, hsame⟩
    · cases hsame
      rfl
    · cases hsame
  · rcases h' with ⟨_, _, -, hsame⟩ | ⟨_, _, _, _, hsame⟩
    · cases hsame
    · cases hsame
      rfl

/-- What may be wrong with the record with a number. -/
def DecoderOptions.FaultIn (o : DecoderOptions) (number : Nat) : Format → DecodeError → Prop
  | .oai, e => o.oai.requireSections = true ∧
      ∃ path ∈ o.oai.sections, e = .missingSection number path
  | .csv, e => CsvOptions.RowFault (o.csv.rowsAbove + number - 1) e
  | .json, e => e = JsonOptions.fault (.notAnObject number)

/-- A record of a harvest is at fault for a section that is missing. -/
theorem OaiOptions.missing_of_record {o : OaiOptions} {number : Nat} {n : Markup.Node}
    {e : DecodeError} (h : o.record number n = .error e) :
    o.requireSections = true ∧ ∃ path ∈ o.sections, e = .missingSection number path := by
  rcases bind_eq_error.1 h with h | ⟨found, -, h⟩
  · rcases bind_eq_error.1 h with h | ⟨parts, -, h⟩
    · rcases exists_of_mapM_error h with ⟨path, hpath, hfault⟩
      -- a section that is there is no fault, one that is missing is a fault where sections are
      -- required
      cases hsection : findSection? n path with
      | some s =>
          rw [hsection] at hfault
          cases hfault
      | none =>
          simp only [hsection] at hfault
          by_cases hrequired : o.requireSections = true
          · rw [if_pos hrequired] at hfault
            cases hfault
            exact ⟨hrequired, path, hpath, rfl⟩
          · rw [if_neg hrequired] at hfault
            cases hfault
    · cases h
  · cases h

/-- The fields of a row are at fault if one is no text. -/
theorem CsvOptions.noText_of_textsFrom {row column : Nat} {start : Delimited.Place}
    {fields : List (List UInt8)} {e : DecodeError}
    (h : textsFrom row start column fields = .error e) :
    ∃ line field byte index, e = fault (.noText row line field byte index) := by
  induction fields generalizing column with
  | nil => cases h
  | cons bytes rest ih =>
      rw [textsFrom] at h
      -- the field is no text, or a field behind it is not
      cases hbytes : Utf8.decode bytes with
      | error good =>
          rw [hbytes] at h
          cases h
          exact ⟨_, _, _, _, rfl⟩
      | ok s =>
          rw [hbytes] at h
          cases hrest : textsFrom row start (column + 1) rest with
          | error e' =>
              rw [hrest] at h
              cases h
              exact ih hrest
          | ok ss =>
              rw [hrest] at h
              cases h

/-- A record of delimited text is at fault for its row. -/
theorem CsvOptions.rowFault_of_record {headers : List String} {i : Option Nat}
    {above width number : Nat} {row : Delimited.Row} {e : DecodeError}
    (h : record headers i above width number row = .error e) :
    RowFault (above + number - 1) e := by
  unfold record at h
  by_cases hwidth : row.fields.length ≠ width
  · simp only [if_pos hwidth] at h
    cases h
    exact .inl ⟨_, _, hwidth, rfl⟩
  · simp only [if_neg hwidth] at h
    rcases bind_eq_error.1 h with h | ⟨cells, -, h⟩
    · exact .inr (noText_of_textsFrom h)
    · cases h

theorem CsvOptions.rowFault_of_splitHeader {o : CsvOptions} {rows : List Delimited.Row}
    {e : DecodeError} (h : o.splitHeader rows = .error e) :
    o.rowsAbove = 1 ∧ RowFault 0 e := by
  unfold splitHeader at h
  split at h
  · rename_i first below hheaders
    cases htexts : texts 0 first with
    | error e' =>
        rw [htexts] at h
        cases h
        exact ⟨by simp [rowsAbove, hheaders], .inr (noText_of_textsFrom htexts)⟩
    | ok names =>
        rw [htexts] at h
        cases h
  · cases h

/-- Ids cannot be found where there is no such column. -/
theorem CsvOptions.noIdColumn_of_idIndex {o : CsvOptions} {headers : List String}
    {e : DecodeError} (h : o.idIndex headers = .error e) :
    ∃ column, e = fault (.noIdColumn column) := by
  unfold idIndex at h
  split at h
  · cases h
  · split at h
    · cases h
    · cases h
      exact ⟨_, rfl⟩

/-- The records cannot be found where the path leads nowhere. -/
theorem JsonOptions.noValue_of_root {o : JsonOptions} {document : Json} {e : DecodeError}
    (h : o.root document = .error e) : ∃ path, e = fault (.noValue path) := by
  unfold root at h
  split at h
  · cases h
  · split at h
    · cases h
    · cases h
      exact ⟨_, rfl⟩

/-- A record of Json text is at fault if it is no object. -/
theorem JsonOptions.notAnObject_of_record {o : JsonOptions} {number : Nat} {v : Json}
    {e : DecodeError} (h : o.record number v = .error e) : e = fault (.notAnObject number) := by
  cases v with
  | object members => cases h
  | _ =>
      cases h
      rfl

/-! ## Where faults lie -/

/-- The faults of a document are told from those of its records, and these by their numbers. -/
structure Inventory.Tells (p : Nat → DecodeError → Prop) (held : Inventory) : Prop where
  document : ∀ e, held = .error e → ∀ k, ¬ p (k + 1) e
  record : ∀ rs, held = .ok rs → ∀ (i : Nat) e, rs[i]? = some (.error e) → p (i + 1) e

namespace Inventory.Tells

variable {p : Nat → DecodeError → Prop}

theorem of_error {e : DecodeError} (h : ∀ k, ¬ p (k + 1) e) : Tells p (.error e) := by
  refine ⟨?_, ?_⟩
  · intro e' he'
    cases he'
    exact h
  · intro rs hrs
    cases hrs

/-- Faults of single records tell the numbers of these. -/
theorem of_readings {α : Type u} {read : Nat → α → Except DecodeError (List Event)}
    (h : ∀ number a e, read number a = .error e → p number e) (items : List α) :
    Tells p (.ok (readings read items)) := by
  refine ⟨?_, ?_⟩
  · intro e he
    cases he
  · intro rs hrs i e hfault
    cases hrs
    rw [getElem?_readings] at hfault
    rcases Option.map_eq_some_iff.1 hfault with ⟨a, -, ha⟩
    exact h _ _ _ ha

end Inventory.Tells

namespace DecoderOptions

variable (o : DecoderOptions)

/-- The fault that names a record names no other one. -/
theorem FaultIn.unique {o : DecoderOptions} {f : Format} {k l : Nat} {e : DecodeError}
    (h : o.FaultIn (k + 1) f e) (h' : o.FaultIn (l + 1) f e) : k = l := by
  -- the fault of a record names the record, or the row it is in
  cases f with
  | oai =>
      rcases h with ⟨-, path, -, rfl⟩
      rcases h' with ⟨-, path', -, hsame⟩
      cases hsame
      rfl
  | csv =>
      have hrow : o.csv.rowsAbove + (k + 1) - 1 = o.csv.rowsAbove + (l + 1) - 1 :=
        CsvOptions.RowFault.unique h h'
      omega
  | json =>
      cases h
      cases h'
      rfl

theorem oai_tells (input : String) : (o.inventory .oai input).Tells (o.FaultIn · .oai) := by
  change (o.oai.inventory input).Tells _
  unfold OaiOptions.inventory
  cases Markup.Node.ofText? input with
  | none =>
      apply Inventory.Tells.of_error
      rintro k ⟨-, path, -, h⟩
      cases h
  | some root =>
      apply Inventory.Tells.of_readings
      intro number n e h
      exact OaiOptions.missing_of_record h

theorem tells_jsonFault {cause : Malformation} (h : ∀ number, cause ≠ .notAnObject number) :
    Inventory.Tells (o.FaultIn · .json) (.error (JsonOptions.fault cause)) := by
  apply Inventory.Tells.of_error
  intro k hk
  injection hk with _ hcause
  exact h _ hcause

/-- The faults of Json records tell the numbers of these. -/
theorem tells_jsonItems (items : List Json) :
    Inventory.Tells (o.FaultIn · .json) (.ok (readings o.json.record items)) := by
  apply Inventory.Tells.of_readings
  intro number v e h
  exact JsonOptions.notAnObject_of_record h

theorem json_tells (input : String) : (o.inventory .json input).Tells (o.FaultIn · .json) := by
  change (o.json.inventory input).Tells _
  unfold JsonOptions.inventory
  cases Json.parse? input with
  | none => exact o.tells_jsonFault fun number h => nomatch h
  | some document =>
      simp only
      -- records are the items of the part, or the part is one record
      cases hroot : o.json.root document with
      | error e =>
          rcases JsonOptions.noValue_of_root hroot with ⟨path, rfl⟩
          exact o.tells_jsonFault fun number h => nomatch h
      | ok part =>
          cases part with
          | array items => exact o.tells_jsonItems items
          | object members => exact o.tells_jsonItems [.object members]
          | _ => exact o.tells_jsonFault fun number h => nomatch h

theorem csv_tells (input : String) : (o.inventory .csv input).Tells (o.FaultIn · .csv) := by
  change (o.csv.inventory input).Tells _
  unfold CsvOptions.inventory
  dsimp only
  cases hheader : o.csv.splitHeader (Delimited.rows o.csv.delimiter (Utf8.encode input)) with
  | error e =>
      apply Inventory.Tells.of_error
      intro k hk
      rcases CsvOptions.rowFault_of_splitHeader hheader with ⟨habove, hnames⟩
      -- the row with the names stands above the rows of all records
      have hrow : 0 = o.csv.rowsAbove + (k + 1) - 1 := hnames.unique hk
      omega
  | ok split =>
      simp only
      cases hindex : o.csv.idIndex split.1 with
      | error e =>
          apply Inventory.Tells.of_error
          intro k hk
          rcases CsvOptions.noIdColumn_of_idIndex hindex with ⟨column, rfl⟩
          rcases hk with ⟨_, _, -, hsame⟩ | ⟨_, _, _, _, hsame⟩
          · cases hsame
          · cases hsame
      | ok i =>
          apply Inventory.Tells.of_readings
          intro number row e h
          exact CsvOptions.rowFault_of_record h

/-- In every format, the faults of records tell their numbers and those of documents none. -/
theorem inventory_tells (f : Format) (input : String) :
    (o.inventory f input).Tells (o.FaultIn · f) := by
  cases f with
  | oai => exact o.oai_tells input
  | csv => exact o.csv_tells input
  | json => exact o.json_tells input

/-! ## Records that are handed on -/

/-- A decoder hands on whole records, whatever the options and the document.  If it comes to the end
it tells their number; if a record is at fault it has handed on those in front of this one, and if
the document is, none. -/
theorem decode_records (f : Format) (input : String) :
    let decoded := (o.decoderFor f).decode input
    (o.inventory f input).Gives decoded ∧
      (∀ count, decoded.result = .ok count → count = decoded.started) ∧
      ∀ e, decoded.result = .error e →
        (∀ k, o.FaultIn (k + 1) f e → decoded.started = k) ∧
        ((∀ k, ¬ o.FaultIn (k + 1) f e) → decoded.events = []) := by
  intro decoded
  have hgives : (o.inventory f input).Gives decoded := o.decode_gives f input
  have htells := o.inventory_tells f input
  refine ⟨hgives, ?_⟩
  clear_value decoded
  generalize o.inventory f input = held at hgives htells
  cases hgives with
  | unread e =>
      refine ⟨nofun, ?_⟩
      intro e' he'
      cases he'
      constructor
      · intro k hk
        exact absurd hk (htells.document e rfl k)
      · intro _
        rfl
  | whole qs =>
      refine ⟨?_, nofun⟩
      intro count hcount
      cases hcount
      exact (started_records qs _).symm
  | cut qs e rest =>
      -- the fault is that of the record behind those handed on
      have hfault : o.FaultIn (qs.length + 1) f e := by
        apply htells.record _ rfl
        simp
      refine ⟨nofun, ?_⟩
      intro e' he'
      cases he'
      constructor
      · intro k hk
        rw [started_records]
        exact hfault.unique hk
      · intro hnone
        exact absurd hfault (hnone qs.length)

end DecoderOptions
end Recast
