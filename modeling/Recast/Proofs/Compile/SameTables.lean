import Recast.Proofs.Compile.Alike

/-!
# SameTables — tables as text and tables as blocks

The table of a function is a parameter that holds JSON text, or one that is a block.  Two components
are *retabled* if they differ in nothing but tables of their function, the first one with JSON text
and the second one with a block of the same entries.

Main statement: `Component.Retabled.alike`.  To the compiler such components are alike.
-/

namespace Recast

/-! ## Tables of functions -/

/-- A function takes a table for the parameter with a name. -/
def TakesTable (function name : String) : Prop :=
  function = "lookup" ∧ name = "in" ∨
    (function = "whitelist" ∨ function = "blacklist" ∨ function = "setreplace") ∧ name = "map"

instance (function name : String) : Decidable (TakesTable function name) :=
  inferInstanceAs (Decidable (_ ∨ _))

theorem TakesTable.isTable {function name : String} (h : TakesTable function name) :
    ∃ s, Signature.function? function = some s ∧ s.isTable name = true := by
  rcases h with ⟨rfl, rfl⟩ | ⟨rfl | rfl | rfl, rfl⟩ <;> exact ⟨_, rfl, rfl⟩

/-- No table is what selects a function, a path or an ordinal. -/
theorem not_takesTable_selectors (function : String) :
    ¬ TakesTable function Component.functionParameter ∧
      ¬ TakesTable function Component.pathParameter ∧
      ¬ TakesTable function Component.ordinalParameter := by
  simp [TakesTable, Component.functionParameter, Component.pathParameter,
    Component.ordinalParameter]

namespace Parameter

/-- A parameter holds a table as text, and another one of its name is a block of the same entries. -/
structure SameTable (p q : Parameter) : Prop where
  name : p.name = q.name
  single : p.repeats = false
  text : ∃ data, p.data = some data ∧
    inlineTable? data = some (Draft.blockEntries q.parameters)
  block : q.repeats = true
  blank : q.data = none

/-- Parameters under a key are the same, or they hold the same table of a function. -/
inductive Retabled (function key : String) (p q : Parameter) : Prop where
  | same (h : p = q)
  | table (htakes : TakesTable function key) (hname : p.name = key) (h : p.SameTable q)

variable {function key : String} {p q : Parameter}

/-- The two forms of a table have one name. -/
theorem Retabled.name (h : Retabled function key p q) : p.name = q.name := by
  cases h with
  | same h => rw [h]
  | table _ _ h => exact h.name

/-- Where a table is asked for, both parameters give the same one. -/
theorem SameTable.tableOf? (h : p.SameTable q) : ∃ entries,
    Draft.tableOf? true p = some entries ∧ Draft.tableOf? true q = some entries := by
  obtain ⟨data, hdata, htable⟩ := h.text
  refine ⟨Draft.blockEntries q.parameters, ?_, ?_⟩
  · simp [Draft.tableOf?, hdata, htable]
  · simp [Draft.tableOf?, h.blank, h.block]

end Parameter

/-! ## Components -/

namespace Component

def KeyedRetabled (function : String) (a b : String × Parameter) : Prop :=
  a.1 = b.1 ∧ a.2.Retabled function a.1 b.2

/-- Two components differ in nothing but the way in which tables of their function are given. -/
structure Retabled (c c' : Component) : Prop extends c.SameWires c' where
  name : c.name = c'.name
  filter : c.filter = c'.filter
  parameters : List.Forall₂ (KeyedRetabled c.function) c.payload.parameters.toList
    c'.payload.parameters.toList

/-- What is found under a key is the same, or the two forms of a table. -/
theorem get?_retabled {function : String} {as bs : List (String × Parameter)}
    (h : List.Forall₂ (KeyedRetabled function) as bs) (key : String) :
    Option.Rel (Parameter.Retabled function key) (Assoc.get? key as) (Assoc.get? key bs) := by
  induction h with
  | nil => exact .none
  | @cons a b _ _ hab _ ih =>
      obtain ⟨ka, p⟩ := a
      obtain ⟨kb, q⟩ := b
      obtain ⟨rfl, hpq⟩ := hab
      rw [Assoc.get?, Assoc.get?]
      split
      · rename_i hkey
        subst hkey
        exact .some hpq
      · exact ih

namespace Retabled

variable {c c' : Component} (h : c.Retabled c')

include h

/-- The parameters under a key are the same, or the two forms of a table. -/
theorem get? (key : String) : Option.Rel (Parameter.Retabled c.function key)
    (c.payload.parameters.get? key) (c'.payload.parameters.get? key) :=
  get?_retabled h.parameters key

/-- A parameter that is no table has the same data. -/
theorem data?_eq {key : String} (hkey : ¬ TakesTable c.function key) :
    c.payload.data? key = c'.payload.data? key := by
  have hget := h.get? key
  unfold Payload.data?
  generalize c.payload.parameters.get? key = found, c'.payload.parameters.get? key = found' at hget
  cases hget with
  | none => rfl
  | some hpq =>
      cases hpq with
      | same hpq => rw [hpq]
      | table htakes => exact absurd htakes hkey

theorem function_eq : c.function = c'.function := by
  rw [function, function, h.data?_eq (not_takesTable_selectors _).1, h.name]

theorem path_eq : c.path = c'.path := by
  rw [path, path, h.data?_eq (not_takesTable_selectors _).2.1, h.name]

theorem ordinal_eq : c.payload.data? ordinalParameter = c'.payload.data? ordinalParameter :=
  h.data?_eq (not_takesTable_selectors _).2.2

/-! ### Faults -/

/-- The same parameters are provided, in whatever form. -/
theorem provides_eq (key : String) : c.provides key = c'.provides key := by
  have hget := h.get? key
  unfold provides
  generalize c.payload.parameters.get? key = found, c'.payload.parameters.get? key = found' at hget
  cases hget with
  | none => rfl
  | some hpq =>
      cases hpq with
      | same hpq => rw [hpq]
      | table _ _ hpq =>
          obtain ⟨data, hdata, -⟩ := hpq.text
          simp [hdata, hpq.block]

/-- The two forms of a table have the same faults. -/
theorem tableIssues_eq (key : String) : c.tableIssues key = c'.tableIssues key := by
  have hget := h.get? key
  unfold tableIssues
  rw [h.id]
  generalize c.payload.parameters.get? key = found, c'.payload.parameters.get? key = found' at hget
  cases hget with
  | none => rfl
  | some hpq =>
      cases hpq with
      | same hpq => rw [hpq]
      | table _ _ hpq =>
          -- neither form of a table is a fault
          obtain ⟨data, hdata, htable⟩ := hpq.text
          simp [hpq.single, hpq.block, hdata, htable]

/-- The two components have the same faults. -/
theorem compileIssues_eq : c.compileIssues = c'.compileIssues := by
  have hsignature : ∀ s, c.signatureIssues s = c'.signatureIssues s := by
    intro s
    cases s with
    | none => rw [signatureIssues, signatureIssues, h.id, h.function_eq]
    | some s =>
        have htables : c.tableIssues = c'.tableIssues := funext h.tableIssues_eq
        simp only [signatureIssues, h.provides_eq, htables, h.id]
  simp only [compileIssues, ordinalIssues, filterIssues, inputIssues, hsignature, h.function_eq,
    h.ordinal_eq, h.id, h.kind, h.inputs, h.filter]

/-! ### Calls -/

theorem signature?_eq : c.signature? = c'.signature? := by
  rw [signature?, signature?, h.function_eq]

/-- The two forms of a table have the same entries. -/
theorem entries?_eq {key : String} {p q : Parameter} (hpq : p.Retabled c.function key q) :
    c.entries? p = c'.entries? q ∧ ((c.entries? p).isSome ∨ p = q) := by
  rw [entries?, entries?, ← h.signature?_eq, ← hpq.name]
  cases hpq with
  | same hpq => exact ⟨by rw [hpq], .inr hpq⟩
  | table htakes hname hpq =>
      obtain ⟨s, hs, htable⟩ := htakes.isTable
      obtain ⟨entries, hp, hq⟩ := hpq.tableOf?
      have hsignature : c.signature?.any (fun s => s.isTable p.name) = true := by
        rw [signature?, hs, hname]
        exact htable
      rw [hsignature, hp, hq]
      exact ⟨rfl, .inl rfl⟩

theorem tableName_eq {p q : Parameter} (hname : p.name = q.name) :
    c.tableName p = c'.tableName q := by
  rw [tableName, tableName, h.id, hname]

/-- The two forms of a table give the same attribute. -/
theorem attribute?_eq {key : String} {p q : Parameter} (hpq : p.Retabled c.function key q) :
    c.attribute? p = c'.attribute? q := by
  obtain ⟨hentries, hsame⟩ := h.entries?_eq hpq
  rw [attribute?, attribute?, ← hentries, h.tableName_eq hpq.name, hpq.name]
  rcases hsame with hsome | rfl
  · obtain ⟨entries, hentries⟩ := Option.isSome_iff_exists.1 hsome
    rw [hentries]
  · rfl

/-- The two forms of a table leave the same table. -/
theorem table?_eq {key : String} {p q : Parameter} (hpq : p.Retabled c.function key q) :
    c.table? p = c'.table? q := by
  rw [table?, table?, (h.entries?_eq hpq).1, h.tableName_eq hpq.name]

/-- The parameters that are handed to the function hold the same tables. -/
theorem arguments : List.Forall₂ (fun p q => ∃ key, p.Retabled c.function key q) c.arguments
    c'.arguments := by
  have hvalues : List.Forall₂ (fun p q => ∃ key, p.Retabled c.function key q)
      c.payload.parameters.values c'.payload.parameters.values := by
    unfold OrderedMap.values
    rw [List.forall₂_map_left_iff, List.forall₂_map_right_iff]
    exact h.parameters.imp fun a b hab => ⟨a.1, hab.2⟩
  exact filter_forall₂ hvalues fun p q ⟨_, hpq⟩ => by rw [hpq.name]

/-- To the compiler it makes no difference how a table is given. -/
theorem alike : c.Alike c' where
  toSameWires := h.toSameWires
  filter := h.filter
  path := h.path_eq
  ordinal := h.ordinal_eq
  call := by
    rw [call, call, h.function_eq,
      filterMap_eq_of_forall₂ h.arguments fun p q ⟨_, hpq⟩ => h.attribute?_eq hpq]
  tables := filterMap_eq_of_forall₂ h.arguments fun p q ⟨_, hpq⟩ => h.table?_eq hpq
  issues := h.compileIssues_eq

end Retabled
end Component
end Recast
