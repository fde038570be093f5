import Recast.Proofs.Script.Faithful
import Recast.Proofs.Text.Digits

/-!
# Representable — scripts that survive being written

`Script.Representable` says of the strings of a script what a document can hold: names that are
attribute names or element names, values that stand between quotes, and the name of the script.
Every representable script is read as it has been written, with its rules, attributes, variables,
tables, entries and filters in their order: `Script.ofText_toText_of_representable`.
-/

namespace Recast

open Markup (isBareName isChar isValueChar)

namespace Script

/-! ## The strings of a script -/

/-- The strings of a data rule that are written as values of attributes. -/
def DataRule.values (r : DataRule) : List String :=
  r.source :: r.name.toList ++ r.filter.toList ++ r.functions.flatMap fun c => c.attributes.values

/-- The strings of a data rule that are written as names of elements or attributes. -/
def DataRule.names (r : DataRule) : List String :=
  r.functions.flatMap fun c => c.name :: c.attributes.keys

def Rule.values : Rule → List String
  | .data r => r.values
  | .collect r => r.name :: r.attributes.values ++ r.inputs.flatMap DataRule.values

def Rule.names : Rule → List String
  | .data r => r.names
  | .collect r => r.kind :: r.attributes.keys ++ r.inputs.flatMap DataRule.names

mutual
/-- The strings of an entry and of the entries inside it. -/
def Entry.values : Entry → List String
  | ⟨name, value, entries⟩ => name :: value.toList ++ Entry.valuesAll entries

def Entry.valuesAll : List Entry → List String
  | [] => []
  | e :: rest => Entry.values e ++ Entry.valuesAll rest
end

def Table.values (t : Table) : List String :=
  t.name :: Entry.valuesAll t.entries

def values (s : Script) : List String :=
  s.vars.toList.flatMap (fun v => [v.1, v.2]) ++ s.rules.flatMap Rule.values ++
    s.maps.values.flatMap Table.values ++ s.filters.toList.flatMap fun f => [f.1, f.2.expression]

/-- The strings of a script that are written as names of elements or attributes. -/
def names (s : Script) : List String :=
  s.rules.flatMap Rule.names

/-- The strings of a script are those of its variables, rules, tables and filters. -/
theorem mem_values {s : Script} {v : String} :
    v ∈ s.values ↔ (∃ w ∈ s.vars.toList, v = w.1 ∨ v = w.2) ∨ (∃ r ∈ s.rules, v ∈ r.values) ∨
      (∃ p ∈ s.maps.toList, v ∈ p.2.values) ∨
        ∃ f ∈ s.filters.toList, v = f.1 ∨ v = f.2.expression := by
  simp [values, OrderedMap.values, List.flatMap_map]

/-! ## What a document can hold -/

/-- Whether a text can be the value of an attribute: its characters are those of a document, and
none is a tab or ends a line. -/
def isWritable (v : String) : Bool :=
  v.toList.all fun c => isChar c && isValueChar c

/-- A script that a document can hold. -/
structure Representable (s : Script) : Prop where
  values : ∀ v ∈ s.values, isWritable v = true
  names : ∀ n ∈ s.names, isBareName n = true ∧ n ≠ "xmlns"
  nameChars : ∀ c ∈ s.name.toList, isChar c = true ∧ c ≠ '\r'
  nameFirst : ∀ c ∈ s.name.toList.head?, Text.isBlank c = false
  nameLast : ∀ c ∈ s.name.toList.getLast?, Text.isBlank c = false
  ordered : s.Ordered

/-- Whether a rule has one name and cannot be taken for a rule of another kind. -/
def Rule.isOrdered : Rule → Bool
  | .data _ => true
  | .collect c => c.kind ≠ "data" && "name" ∉ c.attributes.keys

instance (s : Script) : Decidable s.Ordered :=
  decidable_of_iff ((∀ p ∈ s.maps.toList, p.2.name = p.1) ∧ ∀ r ∈ s.rules, r.isOrdered = true)
    ⟨fun ⟨htables, hrules⟩ => ⟨htables, fun c hc => by simpa [Rule.isOrdered] using hrules _ hc⟩,
      fun h => ⟨h.tables, fun r hr => by
        cases r with
        | data r => rfl
        | collect c => simpa [Rule.isOrdered] using h.collects c hr⟩⟩

instance (s : Script) : Decidable s.Representable :=
  decidable_of_iff (s.values.all isWritable = true ∧
      (s.names.all fun n => isBareName n && n != "xmlns") = true ∧
      (s.name.toList.all fun c => isChar c && c != '\r') = true ∧
      (s.name.toList.head?.all (!Text.isBlank ·) = true ∧
        s.name.toList.getLast?.all (!Text.isBlank ·) = true) ∧
      s.Ordered)
    ⟨fun ⟨hvalues, hnames, hchars, ⟨hfirst, hlast⟩, hordered⟩ =>
        ⟨List.all_eq_true.1 hvalues, by simpa using hnames, by simpa using hchars,
          by simpa [Option.all_eq_true] using hfirst, by simpa [Option.all_eq_true] using hlast,
          hordered⟩,
      fun h => ⟨List.all_eq_true.2 h.values, by simpa using h.names, by simpa using h.nameChars,
        ⟨by simpa [Option.all_eq_true] using h.nameFirst,
          by simpa [Option.all_eq_true] using h.nameLast⟩, h.ordered⟩⟩

/-- An attribute of a representable script. -/
def Written (name value : String) : Prop :=
  (isBareName name = true ∧ name ≠ "xmlns") ∧ isWritable value = true

/-- Attributes are fine if their names are bare and their values can be written. -/
theorem fine_toList {m : OrderedMap String String}
    (hkeys : ∀ k ∈ m.keys, isBareName k = true ∧ k ≠ "xmlns")
    (hvalues : ∀ v ∈ m.values, isWritable v = true) : Fine Written m.toList := by
  refine ⟨m.nodup_keys, ?_⟩
  intro a ha
  have hkey : a.1 ∈ m.keys := List.mem_map_of_mem ha
  have hvalue : a.2 ∈ m.values := List.mem_map_of_mem ha
  exact ⟨hkeys _ hkey, hvalues _ hvalue⟩

theorem written_dialect (d : Dialect) : Written "type" d.word :=
  ⟨by decide +kernel, by cases d <;> decide +kernel⟩

/-- The attributes that the writer itself names can be written. -/
theorem written_fixed {name value : String}
    (hname : name ∈ ["name", "value", "source", "filter", "expression"])
    (hvalue : isWritable value = true) : Written name value := by
  have hnames : ∀ name ∈ ["name", "value", "source", "filter", "expression"],
      isBareName name = true ∧ name ≠ "xmlns" := by decide +kernel
  exact ⟨hnames name hname, hvalue⟩

/-- The tags of a data rule are fine if its strings can be written. -/
theorem fineTags_of_dataRule {r : DataRule} (hvalues : ∀ v ∈ r.values, isWritable v = true)
    (hnames : ∀ n ∈ r.names, isBareName n = true ∧ n ≠ "xmlns") : FineTags Written r.outline := by
  simp only [DataRule.values, List.mem_append, List.mem_cons, Option.mem_toList,
    List.mem_flatMap] at hvalues
  simp only [DataRule.names, List.mem_flatMap] at hnames
  refine DataRule.fineTags (written_fixed (by simp) (hvalues _ (by simp)))
    (fun v hv => written_fixed (by simp) (hvalues v (by simp [hv])))
    (fun v hv => written_fixed (by simp) (hvalues v (by simp [hv]))) ?_
  intro c hc
  have hkeys : ∀ k ∈ c.attributes.keys, isBareName k = true ∧ k ≠ "xmlns" :=
    fun k hk => hnames k ⟨c, hc, List.mem_cons_of_mem _ hk⟩
  have hattributes : ∀ v ∈ c.attributes.values, isWritable v = true :=
    fun v hv => hvalues v (.inr ⟨c, hc, hv⟩)
  exact fine_toList hkeys hattributes

/-- The tags of a rule are fine if its strings can be written, and it has one name. -/
theorem fineTags_of_rule {r : Rule} (hvalues : ∀ v ∈ r.values, isWritable v = true)
    (hnames : ∀ n ∈ r.names, isBareName n = true ∧ n ≠ "xmlns")
    (hordered : ∀ c, r = .collect c → "name" ∉ c.attributes.keys) :
    FineTags Written r.outline := by
  cases r with
  | data r => exact fineTags_of_dataRule hvalues hnames
  | collect r =>
      simp only [Rule.values, List.mem_append, List.mem_cons, List.mem_flatMap] at hvalues
      simp only [Rule.names, List.mem_append, List.mem_cons, List.mem_flatMap] at hnames
      have hattributes : Fine Written r.attributes.toList :=
        fine_toList (fun k hk => hnames k (by simp [hk])) fun v hv => hvalues v (by simp [hv])
      refine CollectRule.fineTags (written_fixed (by simp) (hvalues _ (by simp))) hattributes
        (hordered r rfl) ?_
      intro d hd
      exact fineTags_of_dataRule (fun v hv => hvalues v (.inr ⟨d, hd, hv⟩))
        fun n hn => hnames n (.inr ⟨d, hd, hn⟩)

mutual
theorem fineTags_of_entry (e : Entry) (h : ∀ v ∈ e.values, isWritable v = true) :
    FineTags Written e.outline := by
  cases e with
  | mk name value entries =>
      simp only [Entry.values, List.mem_append, List.mem_cons, Option.mem_toList] at h
      have hname : isWritable name = true := h _ (by simp)
      have hvalue : ∀ v, value = some v → isWritable v = true := fun v hv => h v (by simp [hv])
      exact Entry.fineTags (written_fixed (by simp) hname)
        (fun v hv => written_fixed (by simp) (hvalue v hv))
        (fineTags_of_entries entries fun v hv => h v (.inr hv))

/-- The tags of entries are fine if their strings can be written. -/
theorem fineTags_of_entries (es : List Entry) (h : ∀ v ∈ Entry.valuesAll es, isWritable v = true) :
    ∀ o ∈ Entry.outlines es, FineTags Written o := by
  cases es with
  | nil => simp [Entry.outlines]
  | cons e rest =>
      rw [Entry.valuesAll, List.forall_mem_append] at h
      rw [Entry.outlines]
      exact List.forall_mem_cons.2 ⟨fineTags_of_entry e h.1, fineTags_of_entries rest h.2⟩
end

variable {s : Script}

/-- Every tag of a representable script is written with names and values that can be read. -/
theorem Representable.held (h : s.Representable) : Held Written (fun _ => True) s where
  name := trivial
  vars := by
    intro v hv
    have hname := h.values v.1 (mem_values.2 (.inl ⟨v, hv, .inl rfl⟩))
    have hvalue := h.values v.2 (mem_values.2 (.inl ⟨v, hv, .inr rfl⟩))
    exact fineTags_leaf
      (fine_named (by decide) (written_fixed (by simp) hname) (written_fixed (by simp) hvalue))
  rules := by
    intro r hr
    have hvalues : ∀ v ∈ r.values, isWritable v = true :=
      fun v hv => h.values v (mem_values.2 (.inr (.inl ⟨r, hr, hv⟩)))
    have hnames : ∀ n ∈ r.names, isBareName n = true ∧ n ≠ "xmlns" :=
      fun n hn => h.names n (List.mem_flatMap.2 ⟨r, hr, hn⟩)
    refine fineTags_of_rule hvalues hnames ?_
    rintro c rfl
    exact (h.ordered.collects c hr).2
  maps := by
    intro p hp
    have hvalues : ∀ v ∈ p.2.values, isWritable v = true :=
      fun v hv => h.values v (mem_values.2 (.inr (.inr (.inl ⟨p, hp, hv⟩))))
    rw [Table.values, List.forall_mem_cons] at hvalues
    exact Table.fineTags (written_fixed (by simp) hvalues.1) (fineTags_of_entries _ hvalues.2)
  filters := by
    intro f hf
    have hname := h.values f.1 (mem_values.2 (.inr (.inr (.inr ⟨f, hf, .inl rfl⟩))))
    have hexpression := h.values _ (mem_values.2 (.inr (.inr (.inr ⟨f, hf, .inr rfl⟩))))
    exact fineTags_filterOutline (written_fixed (by simp) hname) (written_dialect _)
      (written_fixed (by simp) hexpression)

/-- A representable script survives being written and read. -/
theorem Representable.faithful (h : s.Representable) : s.Faithful := by
  have hfine := h.held.fine
  -- the values of all tags can be written
  have hvalue : ∀ t ∈ s.tags, ∀ a ∈ t.2, ∀ c ∈ a.2.toList, isChar c = true ∧ isValueChar c = true := by
    intro t ht a ha c hc
    have hwritten := ((hfine t ht).2 a ha).2
    simp only [isWritable, List.all_eq_true, Bool.and_eq_true] at hwritten
    exact hwritten c hc
  have hlegible : s.Legible := by
    refine ⟨?_, ?_, ?_, ?_⟩
    · intro t ht a ha
      exact ((hfine t ht).2 a ha).1
    · intro t ht
      exact (hfine t ht).1
    · intro t ht a ha c hc
      exact (hvalue t ht a ha c hc).1
    · intro c hc
      exact (h.nameChars c hc).1
  have hname : nameRead s.name = s.name := by
    have hreturn : '\r' ∉ s.name.toList := fun hmem => (h.nameChars _ hmem).2 rfl
    rw [nameRead, Markup.textRead_eq_self hreturn, Text.trim_of_ends h.nameFirst h.nameLast]
  exact ⟨hlegible, fun t ht a ha c hc => (hvalue t ht a ha c hc).2, hname⟩

/-- The elements of its document are named by fixed names, by functions and by collectors. -/
theorem Representable.isBareName_of_mem (h : s.Representable) :
    ∀ t ∈ s.tags, isBareName t.1 = true := by
  -- the names of all rules are bare
  have hnames : ∀ r ∈ s.rules, ∀ n ∈ r.names, isBareName n = true :=
    fun r hr n hn => (h.names n (List.mem_flatMap.2 ⟨r, hr, hn⟩)).1
  refine fun t ht => name_of_mem_tags isBareName_of_fixed ?_ ?_ ht
  · intro r hr d hd c hc
    refine hnames r hr c.name ?_
    have hdata : c.name ∈ d.names := List.mem_flatMap.2 ⟨c, hc, List.mem_cons_self⟩
    cases r with
    | data r =>
        obtain rfl := List.mem_singleton.1 hd
        exact hdata
    | collect r => exact List.mem_append_right _ (List.mem_flatMap.2 ⟨d, hd, hdata⟩)
  · intro r hr
    exact hnames _ hr r.kind (List.mem_append_left _ List.mem_cons_self)

/-- A representable script is read as it has been written. -/
theorem ofText_toText_of_representable (h : s.Representable) : ofText s.toText = .ok s :=
  ofText_toText_of_faithful h.isBareName_of_mem h.ordered h.faithful

/-- A script with a variable, a collect rule of one filtered and mapped reading, a table with an entry
inside an entry, and characters that stand for others in a document. -/
def boxed : Script where
  name := "a <b> & \"c\""
  vars := .ofList [("who", "x > 'y'"), ("none", "")]
  rules := [
    .data ⟨"in.a", none, none, []⟩,
    .collect ⟨"combine", "out", .ofList [("value", "${a} & ${b}"), ("reset", "")], [
      ⟨"in.*", some "a", some "short", [
        ⟨"compose", .ofList [("prefix", " <"), ("postfix", "> ")]⟩,
        ⟨"lookup", .ofList [("in", "codes")]⟩]⟩,
      ⟨"@out", some "", none, []⟩]⟩]
  maps := .ofList [("codes", ⟨"codes", [
    ⟨"k", some "v", [⟨"inner", none, [⟨"in\u00E4rmost", some "", []⟩]⟩]⟩,
    ⟨"k", none, []⟩]⟩), ("bare", ⟨"bare", []⟩)]
  filters := .ofList [("short", ⟨"in.a=\"<3\"", .boolean⟩)]

/-- A script with a table inside a table and characters that have to be escaped is read back. -/
theorem ofText_toText_boxed : boxed.Representable ∧ ofText boxed.toText = .ok boxed := by
  have h : boxed.Representable := by decide +kernel
  exact ⟨h, ofText_toText_of_representable h⟩

end Script
end Recast
