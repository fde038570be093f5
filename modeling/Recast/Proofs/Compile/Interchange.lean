import Recast.Proofs.Compile.SameTables
import Recast.Proofs.Job.Described
import Recast.Proofs.Json.Reread

/-!
# Interchange — the two ways to describe a table

The table of a function is described by an object, as the data of its parameter, or by a block of
parameters that have the values of the object as their data, each under its key.  The object is
printed when the description is read and read again when the job is compiled; the values of the block
are printed one by one.

Main statement: `Job.Description.Interchanged.compile_eq`.  A job compiles to the same script, or is
refused for the same reasons, whichever way its tables are described.
-/

namespace Recast

/-! ## Tables in descriptions -/

namespace ParameterDescription

def ofData (data : Option Json) : ParameterDescription :=
  ⟨none, none, data, false, []⟩

def asData : Json → Option Json
  | .null => none
  | v => some v

def inlined (members : List (String × Json)) : ParameterDescription :=
  ofData (some (.object members))

def blocked (members : List (String × Json)) : ParameterDescription :=
  ⟨none, none, none, true, members.map fun m => (m.1, ofData (asData m.2))⟩

/-- An object that can be a table: all numbers in it are whole, and it is tidy and not too deep. -/
structure Tabular (members : List (String × Json)) : Prop where
  whole : (Json.object members).whole = true
  tidy : (Json.object members).Tidy
  shallow : (Json.object members).depth ≤ Json.maxDepth

/-! ## Tables that are read -/

theorem bind_asData (v : Json) : (asData v).bind dataText? = dataText? v := by
  cases v <;> rfl

def blockParameters (members : List (String × Json)) : List (String × Parameter) :=
  members.map fun m => (m.1, ⟨m.1, none, dataText? m.2, false, []⟩)

/-- A block of parameters with distinct names is kept as it is. -/
theorem entries_block (component : String) (label : String → String)
    (members : List (String × Json)) (done : List (String × Parameter))
    (h : (Assoc.keys done ++ members.map Prod.fst).Nodup) :
    entries component label done (members.map fun m => (m.1, ofData (asData m.2))) =
      (done ++ blockParameters members, []) := by
  induction members generalizing done with
  | nil => simp [entries, blockParameters]
  | cons m rest ih =>
      obtain ⟨k, v⟩ := m
      -- a value alone gives a parameter with no parameters of its own
      have hentry : entry component (k, ofData (asData v)) =
          (⟨k, none, dataText? v, false, []⟩, []) := by
        simp [entry, parameter, ofData, entries, bind_asData]
      have hnew : k ∉ Assoc.keys done := by
        intro hmem
        rw [List.nodup_append] at h
        exact h.2.2 k hmem k (by simp) rfl
      -- behind a name that is new the others are bound
      have hrest := ih (done ++ [(k, ⟨k, none, dataText? v, false, []⟩)]) (by
        simpa [Assoc.keys] using h)
      rw [List.map_cons, entries, hentry]
      simp only [Assoc.get?_eq_none_iff.2 hnew, Option.isSome_none, Bool.false_eq_true, if_false,
        Assoc.put_of_not_mem _ hnew, hrest]
      simp [blockParameters]

variable {members : List (String × Json)}

/-- A table as data is kept as its text. -/
theorem entry_inlined (component key : String) (members : List (String × Json)) :
    entry component (key, inlined members) =
      (⟨key, none, some (Json.object members).compact, false, []⟩, []) := by
  simp [entry, parameter, inlined, ofData, entries, dataText?]

/-- A table as a block is kept as its parameters. -/
theorem entry_blocked (component key : String) (h : Tabular members) :
    entry component (key, blocked members) =
      (⟨key, none, none, true, blockParameters members⟩, []) := by
  have hentries := entries_block component (fun n => s!"{key}.{n}") members [] h.tidy.1
  simp [entry, parameter, blocked, hentries]

theorem textOf?_eq (v : Json) : Parameter.textOf? v = dataText? v := by
  cases v <;> rfl

/-- A block leaves an entry for each of its parameters. -/
theorem blockEntries_blockParameters (members : List (String × Json)) :
    Draft.blockEntries (blockParameters members) =
      members.map fun m => ⟨m.1, Parameter.textOf? m.2, []⟩ := by
  induction members with
  | nil => rfl
  | cons m rest ih =>
      rw [blockParameters, List.map_cons, Draft.blockEntries, ← blockParameters, ih, List.map_cons,
        textOf?_eq]
      rfl

/-- The object that is printed is read again as the entries of the block. -/
theorem inlineTable?_compact (h : Tabular members) :
    Parameter.inlineTable? (Json.object members).compact =
      some (Draft.blockEntries (blockParameters members)) := by
  rw [Parameter.inlineTable?, Json.parse?_compact h.whole h.tidy h.shallow,
    blockEntries_blockParameters]

/-- The two forms of a table are the same table. -/
theorem sameTable (component key : String) (h : Tabular members) :
    (entry component (key, inlined members)).1.SameTable
      (entry component (key, blocked members)).1 := by
  rw [entry_inlined, entry_blocked _ _ h]
  exact ⟨rfl, rfl, ⟨_, rfl, inlineTable?_compact h⟩, rfl, rfl⟩

/-! ## Descriptions of parameters -/

/-- Two keyed parameters are the same, or they describe the same table of a function. -/
inductive Interchanged (function : String) :
    String × ParameterDescription → String × ParameterDescription → Prop where
  | same (p : String × ParameterDescription) : Interchanged function p p
  | table {key : String} {members : List (String × Json)} (htakes : TakesTable function key)
      (h : Tabular members) : Interchanged function (key, inlined members) (key, blocked members)

variable {function : String} {p q : String × ParameterDescription}

/-- Parameters that are interchanged hold the same table, and neither is at fault unless both are. -/
theorem Interchanged.entry (h : Interchanged function p q) (component : String) :
    (entry component p).2 = (entry component q).2 ∧
      (entry component p).1.Retabled function (entry component p).1.name
        (entry component q).1 := by
  cases h with
  | same => exact ⟨rfl, .same rfl⟩
  | table htakes htabular =>
      refine ⟨?_, .table ?_ rfl (sameTable component _ htabular)⟩
      · rw [entry_inlined, entry_blocked _ _ htabular]
      · rw [entry_inlined]
        exact htakes

open Component (KeyedRetabled)

/-- Parameters in the two forms have the same keys. -/
theorem keys_eq_of_retabled {as bs : List (String × Parameter)}
    (h : List.Forall₂ (KeyedRetabled function) as bs) : Assoc.keys as = Assoc.keys bs :=
  map_eq_of_forall₂ h fun _ _ hab => hab.1

/-- Writing the two forms of a table under a key keeps parameters the same but for their forms. -/
theorem put_retabled {as bs : List (String × Parameter)}
    (h : List.Forall₂ (KeyedRetabled function) as bs) {key : String} {x y : Parameter}
    (hxy : x.Retabled function key y) :
    List.Forall₂ (KeyedRetabled function) (Assoc.put key x as) (Assoc.put key y bs) := by
  induction h with
  | nil => exact .cons ⟨rfl, hxy⟩ .nil
  | @cons a b _ _ hab hrest ih =>
      obtain ⟨ka, v⟩ := a
      obtain ⟨kb, w⟩ := b
      obtain ⟨rfl, hvw⟩ := hab
      rw [Assoc.put, Assoc.put]
      split
      · exact .cons ⟨rfl, hxy⟩ hrest
      · exact .cons ⟨rfl, hvw⟩ ih

/-- Parameters written one after the other are the same but for their forms. -/
theorem ofList_retabled {as bs : List (String × Parameter)}
    (h : List.Forall₂ (KeyedRetabled function) as bs) :
    List.Forall₂ (KeyedRetabled function) (Assoc.ofList as) (Assoc.ofList bs) := by
  have hfold : ∀ done done', List.Forall₂ (KeyedRetabled function) done done' →
      List.Forall₂ (KeyedRetabled function) (as.foldl (fun m p => Assoc.put p.1 p.2 m) done)
        (bs.foldl (fun m p => Assoc.put p.1 p.2 m) done') := by
    induction h with
    | nil => exact fun _ _ hdone => hdone
    | @cons a b _ _ hab _ ih =>
        intro done done' hdone
        rw [List.foldl_cons, List.foldl_cons, ← hab.1]
        exact ih _ _ (put_retabled hdone hab.2)
  exact hfold [] [] .nil

/-- Parameters that are interchanged one by one hold the same tables, with the same faults. -/
theorem entries_interchanged {ps qs : List (String × ParameterDescription)}
    (h : List.Forall₂ (Interchanged function) ps qs) (component : String)
    (label : String → String) {as bs : List (String × Parameter)}
    (hdone : List.Forall₂ (KeyedRetabled function) as bs) :
    List.Forall₂ (KeyedRetabled function) (entries component label as ps).1
        (entries component label bs qs).1 ∧
      (entries component label as ps).2 = (entries component label bs qs).2 := by
  induction h generalizing as bs with
  | nil => exact ⟨hdone, rfl⟩
  | @cons p q _ _ hpq _ ih =>
      obtain ⟨hissues, hentry⟩ := hpq.entry component
      -- both sides have bound the same names so far
      have hknown : (Assoc.get? (entry component q).1.name as).isSome =
          (Assoc.get? (entry component q).1.name bs).isSome := by
        rw [Bool.eq_iff_iff, isSome_get?_iff, isSome_get?_iff, keys_eq_of_retabled hdone]
      rw [entries, entries]
      simp only [hissues, hentry.name, hknown]
      split
      · -- the name is bound already, and the parameters stay as they are
        obtain ⟨hall, hlater⟩ := ih hdone
        exact ⟨hall, by rw [hlater]⟩
      · obtain ⟨hall, hlater⟩ := ih (put_retabled hdone hentry)
        rw [hentry.name] at hall hlater
        exact ⟨hall, by rw [hlater]⟩

end ParameterDescription

/-! ## Descriptions of components -/

namespace ComponentDescription

def function (c : ComponentDescription) : String :=
  (c.component .function).1.function

/-- Two payloads differ in nothing but the way in which tables of a function are described. -/
structure PayloadInterchanged (function : String) (p q : PayloadDescription) : Prop where
  name : p.name = q.name
  parameters : List.Forall₂ (ParameterDescription.Interchanged function) p.parameters q.parameters

/-- Two components differ in nothing but the way in which tables of their function are described. -/
structure Interchanged (c c' : ComponentDescription) : Prop where
  id : c.id = c'.id
  name : c.name = c'.name
  type : c.type = c'.type
  inputs : c.inputs = c'.inputs
  outputs : c.outputs = c'.outputs
  filter : c.filter = c'.filter
  payload : Option.Rel (PayloadInterchanged c.function) c.payload c'.payload
  parameters : List.Forall₂ (ParameterDescription.Interchanged c.function) c.parameters
    c'.parameters

namespace Interchanged

theorem refl (c : ComponentDescription) : c.Interchanged c where
  id := rfl
  name := rfl
  type := rfl
  inputs := rfl
  outputs := rfl
  filter := rfl
  payload := by
    cases c.payload with
    | none => exact .none
    | some p => exact .some ⟨rfl, List.forall₂_same.2 fun _ _ => .same _⟩
  parameters := List.forall₂_same.2 fun _ _ => .same _

variable {c c' : ComponentDescription} (h : c.Interchanged c')

include h

theorem payloadName : c.payload.bind PayloadDescription.name =
    c'.payload.bind PayloadDescription.name := by
  have hpayload := h.payload
  generalize c.payload = p, c'.payload = p' at hpayload
  cases hpayload with
  | none => rfl
  | some hp => exact hp.name

/-- All parameters of the two components are interchanged. -/
theorem allParameters : List.Forall₂ (ParameterDescription.Interchanged c.function)
    c.allParameters c'.allParameters := by
  have hpayload := h.payload
  refine List.rel_append ?_ h.parameters
  generalize c.payload = p, c'.payload = p' at hpayload
  cases hpayload with
  | none => exact .nil
  | some hp => exact hp.parameters

/-- The components that are built hold the same tables, with the same faults. -/
theorem component (kind : Kind) :
    (c.component kind).1.Retabled (c'.component kind).1 ∧
      (c.component kind).2 = (c'.component kind).2 := by
  obtain ⟨hentries, hissues⟩ := ParameterDescription.entries_interchanged h.allParameters c.id
    (fun n => n) .nil
  -- the name is that of the component, or else the one of its payload
  have hname : c.name.or (c.payload.bind PayloadDescription.name) =
      c'.name.or (c'.payload.bind PayloadDescription.name) := by
    rw [h.name, h.payloadName]
  refine ⟨?_, ?_⟩
  · have hfunction : (c.component kind).1.function = c.function := rfl
    refine ⟨⟨h.id, rfl, h.inputs, h.outputs⟩, ?_, h.filter, ?_⟩
    · rw [component_eq, component_eq, hname, h.id]
    · rw [hfunction, component_eq, component_eq, ← h.id]
      exact ParameterDescription.ofList_retabled hentries
  · rw [component_eq, component_eq, ← h.id]
    exact hissues

/-- Both components are built and alike, or neither is, and they have the same faults. -/
theorem typed : Option.Rel Component.Alike c.typed.1 c'.typed.1 ∧ c.typed.2 = c'.typed.2 := by
  unfold ComponentDescription.typed
  rw [← h.type]
  cases Kind.ofAuthored? c.type with
  | none => exact ⟨.none, by rw [h.id]⟩
  | some kind =>
      obtain ⟨hretabled, hissues⟩ := h.component kind
      exact ⟨.some hretabled.alike, hissues⟩

end Interchanged
end ComponentDescription

/-! ## Descriptions of jobs -/

namespace Job.Description

/-- Two descriptions differ in nothing but the way in which tables are described. -/
structure Interchanged (d e : Job.Description) : Prop where
  id : d.id = e.id
  name : d.name = e.name
  vars : d.vars = e.vars
  components : List.Forall₂ ComponentDescription.Interchanged d.components e.components

namespace Interchanged

variable {d e : Job.Description} (h : d.Interchanged e)

include h

/-- The components that are built are alike. -/
theorem known : List.Forall₂ Component.Alike d.known.components e.known.components := by
  unfold Job.Description.known
  simp only
  have hcomponents := h.components
  generalize d.components = cs, e.components = cs' at hcomponents
  induction hcomponents with
  | nil => exact .nil
  | @cons c c' _ _ hc _ ih =>
      -- both are left out, or both are typed and alike
      have htyped := hc.typed.1
      rw [List.filterMap_cons, List.filterMap_cons]
      generalize c.typed.1 = k, c'.typed.1 = k' at htyped
      cases htyped with
      | none => exact ih
      | some hk => exact .cons hk ih

/-- The same components have unknown types. -/
theorem unknownIds_eq : d.unknownIds = e.unknownIds := by
  have huntyped := filter_forall₂ h.components
    (p := fun c => (Kind.ofAuthored? c.type).isNone) (q := fun c => (Kind.ofAuthored? c.type).isNone)
    fun _ _ hc => by rw [hc.type]
  exact map_eq_of_forall₂ huntyped fun _ _ hc => hc.id

/-- Descriptions that are interchanged have the same faults. -/
theorem issues_eq : d.issues = e.issues := by
  have hwires : List.Forall₂ Component.SameWires d.known.components e.known.components :=
    h.known.imp fun _ _ hk => hk.toSameWires
  -- the targets have the same ids, so they answer for the same issues
  have htargets : ∀ id, (d.known.targets.any fun t => t.id = id) =
      e.known.targets.any fun t => t.id = id := by
    intro id
    have hids : d.known.targets.map Component.id = e.known.targets.map Component.id :=
      map_eq_of_forall₂ (filter_forall₂ hwires fun _ _ hk => by rw [hk.kind]) fun _ _ hk => hk.id
    have hany := congrArg (fun ids => ids.any fun i => i = id) hids
    simpa [List.any_map, Function.comp_def] using hany
  have hconsequence : isConsequence d.known d.unknownIds = isConsequence e.known e.unknownIds := by
    funext issue
    cases issue <;>
      simp only [isConsequence, unknownIds_eq h, htargets, mentioned_wires hwires]
  have hfaults : (d.components.flatMap fun c => c.typed.2) =
      e.components.flatMap fun c => c.typed.2 :=
    flatMap_eq_of_forall₂ h.components fun _ _ hc => hc.typed.2
  rw [issues, issues, issues_wires hwires, hconsequence, hfaults]

/-- Descriptions that are interchanged are refused for the same faults, or they compile to the same
script. -/
theorem compile_eq : (d.job.mapError fun issues => CompileError.mk (issues.map .invalid)).bind
      Job.compile =
    (e.job.mapError fun issues => CompileError.mk (issues.map .invalid)).bind Job.compile := by
  rw [job, job, issues_eq h]
  cases e.issues with
  | nil => exact compile_alike h.name h.vars h.known
  | cons issue rest => rfl

end Interchanged

end Job.Description
end Recast
