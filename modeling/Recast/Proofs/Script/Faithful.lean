import Recast.Morph.Signature
import Recast.Proofs.Script.Held

/-!
# Faithful — scripts that are read as they have been written

`Script.Faithful` says which scripts survive being written and read again: those whose attributes
have bare names and values without white space other than blanks, in characters of a document, and
whose name is read as it is.  For scripts of known functions and collectors it is exact:
`Script.ofText_toText_iff`.
-/

namespace Recast

open Markup (Outline isBareName isChar isValueChar)
open Markup.Outline (node nodes tagsAll texts textsAll)

namespace Script

/-! ## Names of elements -/

/-- The data rules with which a rule reads. -/
def Rule.readings : Rule → List DataRule
  | .data r => [r]
  | .collect r => r.inputs

/-- A script whose functions and collectors are known, with its tables under their own names. -/
structure Known (s : Script) : Prop where
  functions : ∀ r ∈ s.rules, ∀ d ∈ r.readings, ∀ c ∈ d.functions,
    (Signature.function? c.name).isSome
  collectors : ∀ r, .collect r ∈ s.rules → (Signature.collector? r.kind).isSome
  tables : ∀ p ∈ s.maps.toList, p.2.name = p.1

/-- The names of the elements that are the same in every document. -/
def fixedNames : List String :=
  sectionNames ++ ["var", "data", "map", "entry", "filter"]

/-- The names that the writer itself gives are bare. -/
theorem isBareName_of_fixed : ∀ name ∈ fixedNames, isBareName name = true := by
  decide +kernel

/-- Functions and collectors have bare names. -/
theorem isBareName_of_signature :
    ∀ s ∈ Signature.functions ++ Signature.collectors, isBareName s.name = true := by
  decide +kernel

theorem isBareName_of_function? {name : String} (h : (Signature.function? name).isSome) :
    isBareName name = true := by
  obtain ⟨s, hs⟩ := Option.isSome_iff_exists.1 h
  obtain rfl : s.name = name := by simpa using List.find?_some hs
  exact isBareName_of_signature s (List.mem_append_left _ (List.mem_of_find?_eq_some hs))

theorem isBareName_of_collector? {name : String} (h : (Signature.collector? name).isSome) :
    isBareName name = true := by
  obtain ⟨s, hs⟩ := Option.isSome_iff_exists.1 h
  obtain rfl : s.name = name := by simpa using List.find?_some hs
  exact isBareName_of_signature s (List.mem_append_right _ (List.mem_of_find?_eq_some hs))

/-- The tags of a data rule are its own and those of its functions. -/
theorem name_of_mem_dataRule {N : String → Prop} (hdata : N "data") {r : DataRule}
    (h : ∀ c ∈ r.functions, N c.name) {t : String × List (String × String)}
    (ht : t ∈ r.outline.tags) : N t.1 := by
  have hfold : t ∈ (fold "data" r.attributes (r.functions.map Call.outline)).tags := ht
  rw [tags_fold, List.mem_cons, mem_tagsAll] at hfold
  rcases hfold with rfl | ⟨o, ho, ht⟩
  · exact hdata
  · obtain ⟨c, hc, rfl⟩ := List.mem_map.1 ho
    obtain rfl := List.mem_singleton.1 ht
    exact h c hc

mutual
theorem name_of_mem_entry (e : Entry) : ∀ t ∈ e.outline.tags, t.1 = "entry" := by
  cases e with
  | mk name value entries =>
      intro t ht
      rw [Entry.outline, tags_fold, List.mem_cons] at ht
      rcases ht with rfl | ht
      · rfl
      · exact name_of_mem_entries entries t ht

theorem name_of_mem_entries (es : List Entry) :
    ∀ t ∈ tagsAll (Entry.outlines es), t.1 = "entry" := by
  cases es with
  | nil => simp [Entry.outlines, tagsAll]
  | cons e rest =>
      intro t ht
      rw [Entry.outlines, tagsAll, List.mem_append] at ht
      exact ht.elim (name_of_mem_entry e t) (name_of_mem_entries rest t)
end

/-- Whatever is true of the fixed names and of the names of functions and collectors is true of the
names of all elements. -/
theorem name_of_mem_tags {N : String → Prop} (hfixed : ∀ name ∈ fixedNames, N name) {s : Script}
    (hfunctions : ∀ r ∈ s.rules, ∀ d ∈ r.readings, ∀ c ∈ d.functions, N c.name)
    (hcollectors : ∀ r, .collect r ∈ s.rules → N r.kind) {t : String × List (String × String)}
    (ht : t ∈ s.tags) : N t.1 := by
  have hdata : N "data" := hfixed _ (by simp [fixedNames])
  -- the tag is that of a section, or it is in a part
  rcases mem_tags ht with ⟨hname, -⟩ | ⟨o, ho, ht⟩
  · exact hfixed _ (List.mem_append_left _ hname)
  · rcases mem_parts.1 ho with ho | ho | ho | ho
    · obtain ⟨v, -, rfl⟩ := List.mem_map.1 ho
      obtain rfl := List.mem_singleton.1 ht
      exact hfixed _ (by simp [fixedNames])
    · obtain ⟨r, hr, rfl⟩ := List.mem_map.1 ho
      cases r with
      | data r => exact name_of_mem_dataRule hdata (hfunctions _ hr r (by simp [Rule.readings])) ht
      -- the tag is that of the rule itself, or it is in one of its inputs
      | collect c =>
          rcases List.mem_cons.1 ht with rfl | ht
          · exact hcollectors c hr
          · obtain ⟨o, ho, ht⟩ := mem_tagsAll.1 ht
            obtain ⟨d, hd, rfl⟩ := List.mem_map.1 ho
            exact name_of_mem_dataRule hdata (hfunctions _ hr d hd) ht
    · -- a table holds entries only
      obtain ⟨m, -, rfl⟩ := List.mem_map.1 ho
      rw [Table.outline, tags_fold, List.mem_cons] at ht
      rcases ht with rfl | ht
      · exact hfixed _ (by simp [fixedNames])
      · rw [name_of_mem_entries _ t ht]
        exact hfixed _ (by simp [fixedNames])
    · obtain ⟨f, -, rfl⟩ := List.mem_map.1 ho
      obtain rfl := List.mem_singleton.1 ht
      exact hfixed _ (by simp [fixedNames])

/-- Every element of the document of a known script has a bare name. -/
theorem Known.isBareName_of_mem {s : Script} (hs : s.Known) {t : String × List (String × String)}
    (ht : t ∈ s.tags) : isBareName t.1 = true :=
  name_of_mem_tags isBareName_of_fixed
    (fun r hr d hd c hc => isBareName_of_function? (hs.functions r hr d hd c hc))
    (fun r hr => isBareName_of_collector? (hs.collectors r hr)) ht

/-! ## Scripts whose document is a tree -/

/-- The document of a script is a tree: the attributes of a tag have bare names of their own, none
of which declares a namespace, and all characters are those of a document. -/
structure Legible (s : Script) : Prop where
  names : ∀ t ∈ s.tags, ∀ a ∈ t.2, isBareName a.1 = true ∧ a.1 ≠ "xmlns"
  distinct : ∀ t ∈ s.tags, (t.2.map Prod.fst).Nodup
  values : ∀ t ∈ s.tags, ∀ a ∈ t.2, ∀ c ∈ a.2.toList, isChar c = true
  name : ∀ c ∈ s.name.toList, isChar c = true

instance (s : Script) : Decidable s.Legible :=
  decidable_of_iff
    ((∀ t ∈ s.tags, ∀ a ∈ t.2, isBareName a.1 = true ∧ a.1 ≠ "xmlns") ∧
      (∀ t ∈ s.tags, (t.2.map Prod.fst).Nodup) ∧
      (∀ t ∈ s.tags, ∀ a ∈ t.2, a.2.toList.all isChar = true) ∧ s.name.toList.all isChar = true)
    ⟨fun ⟨hnames, hdistinct, hvalues, hname⟩ => ⟨hnames, hdistinct,
        fun t ht a ha => List.all_eq_true.1 (hvalues t ht a ha), List.all_eq_true.1 hname⟩,
      fun h => ⟨h.names, h.distinct, fun t ht a ha => List.all_eq_true.2 (h.values t ht a ha),
        List.all_eq_true.2 h.name⟩⟩

variable {s : Script}

/-- A legible script is read from its tree, if its elements have bare names. -/
theorem ofText_toText_of_bare (hs : ∀ t ∈ s.tags, isBareName t.1 = true) (h : s.Legible) :
    ofText s.toText = ofNode s.tree := by
  have hspace : Markup.Declares space := by decide +kernel
  have htags : Outline.ReadableTags
      (("metamorph", ("xmlns", space) :: rootAttributes) :: tagsAll s.sections) := by
    refine List.forall_mem_cons.2 ⟨by decide +kernel, ?_⟩
    intro t ht
    refine ⟨hs t ht, ?_⟩
    intro a ha
    exact ⟨(h.names t ht a ha).1, h.values t ht a ha⟩
  have htexts : Outline.ReadableTexts (textsAll s.sections) := by
    intro t ht
    rw [eq_name_of_mem_texts ht]
    exact h.name
  -- names of attributes differ within a tag, and none of them declares a space
  have hdistinct : Outline.DistinctTags (("metamorph", rootAttributes) :: tagsAll s.sections) := by
    have hxmlns : ∀ t ∈ s.tags, "xmlns" ∉ t.2.map Prod.fst := by
      intro t ht hmem
      obtain ⟨a, ha, hname⟩ := List.mem_map.1 hmem
      exact (h.names t ht a ha).2 hname
    exact List.forall_mem_cons.2 ⟨by decide, fun t ht => ⟨h.distinct t ht, hxmlns t ht⟩⟩
  rw [ofText, toText, outline_eq, Markup.ofText?_document hspace htags htexts hdistinct]
  rfl

/-- Reading what has been written is reading the tree of the script. -/
theorem ofText_toText (hs : s.Known) (h : s.Legible) : ofText s.toText = ofNode s.tree :=
  ofText_toText_of_bare (fun _ ht => hs.isBareName_of_mem ht) h

/-- A known script whose document is a tree is ordered. -/
theorem ordered_of_known (hs : s.Known) (h : s.Legible) : s.Ordered where
  tables := hs.tables
  collects := by
    intro r hr
    constructor
    · intro hkind
      have hcollector := hs.collectors r hr
      rw [hkind] at hcollector
      exact absurd hcollector (by decide)
    -- the name of the rule and its attributes stand in one tag
    · have hmem : (r.kind, ("name", r.name) :: r.attributes.toList) ∈ s.tags :=
        tags_of_part (mem_parts.2 (.inr (.inl (List.mem_map_of_mem hr)))) List.mem_cons_self
      exact (List.nodup_cons.1 (h.distinct _ hmem)).1

/-! ## Faithful scripts -/

/-- A script survives being written and read: its document is a tree, no value of an attribute holds
white space other than blanks, and its name is read as it is. -/
structure Faithful (s : Script) : Prop extends Legible s where
  kept : ∀ t ∈ s.tags, ∀ a ∈ t.2, ∀ c ∈ a.2.toList, isValueChar c = true
  nameRead : nameRead s.name = s.name

instance (s : Script) : Decidable s.Faithful :=
  decidable_of_iff (s.Legible ∧
      (∀ t ∈ s.tags, ∀ a ∈ t.2, a.2.toList.all isValueChar = true) ∧ nameRead s.name = s.name)
    ⟨fun ⟨hlegible, hkept, hname⟩ =>
        ⟨hlegible, fun t ht a ha => List.all_eq_true.1 (hkept t ht a ha), hname⟩,
      fun h => ⟨h.toLegible, fun t ht a ha => List.all_eq_true.2 (h.kept t ht a ha), h.nameRead⟩⟩

/-- A faithful script is read back. -/
theorem ofText_toText_of_faithful (hs : ∀ t ∈ s.tags, isBareName t.1 = true) (hordered : s.Ordered)
    (h : s.Faithful) : ofText s.toText = .ok s := by
  have hkept : KeptTags s.tags :=
    fun t ht a ha => Markup.valueRead_eq_self (h.kept t ht a ha)
  rw [ofText_toText_of_bare hs h.toLegible, ofNode_tree hordered hkept, h.nameRead]

/-! ## Scripts that have been read -/

/-- Trimming adds no characters. -/
theorem mem_of_mem_trim {t : String} {c : Char} (h : c ∈ (Text.trim t).toList) : c ∈ t.toList := by
  rw [Text.trim, String.toList_ofList, Text.trimRight, List.mem_reverse] at h
  have hleft := List.mem_reverse.1 ((List.dropWhile_sublist _).subset h)
  exact (List.dropWhile_sublist _).subset hleft

/-- Whatever can be read from a document is legal. -/
theorem granted_legal :
    Granted (fun name value => name ≠ "xmlns" ∧ Markup.LegalAttribute name value)
      (fun t => Markup.Legal t.toList) where
  value := ⟨by decide, by decide, by simp [Markup.Legal]⟩
  dialect := by
    intro d
    refine ⟨by decide, by decide, ?_⟩
    cases d <;> decide
  text := by simp [Markup.Legal]
  trim := by
    intro t ht c hc
    exact ht c (mem_of_mem_trim hc)

/-- A script that has been read from a document can be written as one. -/
theorem legible_of_ofText {t : String} (h : ofText t = .ok s) : s.Legible := by
  unfold ofText at h
  split at h
  · rename_i root hroot
    have held := held_of_ofNode granted_legal (Markup.Node.ofText?_legal hroot) h
    have hfine := held.fine
    refine ⟨?_, ?_, ?_, held.name⟩
    · intro t ht a ha
      obtain ⟨hxmlns, hname, -⟩ := (hfine t ht).2 a ha
      exact ⟨hname, hxmlns⟩
    · intro t ht
      exact (hfine t ht).1
    · intro t ht a ha
      obtain ⟨-, -, hvalue⟩ := (hfine t ht).2 a ha
      exact hvalue
  · cases h

/-- Values keep the characters that values can have. -/
theorem granted_valueChars : Granted (fun _ value => ∀ c ∈ value.toList, isValueChar c = true)
    (fun _ => True) where
  value := by simp
  dialect := by
    intro d
    refine List.all_eq_true.1 ?_
    cases d <;> decide
  text := trivial
  trim := fun _ _ => trivial

/-- Whatever has been written is read without white space other than blanks. -/
theorem every_attributesRead (as : List (String × String)) :
    ∀ a ∈ Outline.attributesRead as, ∀ c ∈ a.value.toList, isValueChar c = true := by
  intro a ha
  obtain ⟨b, -, rfl⟩ := List.mem_map.1 ha
  exact Markup.isValueChar_of_mem_valueRead b.2

mutual
/-- A tree that has been read from a written element has such values only. -/
theorem every_node (scope : Markup.Scope) (level : Nat) (o : Outline) :
    (node scope level o).Every (fun _ value => ∀ c ∈ value.toList, isValueChar c = true)
      (fun _ => True) := by
  cases o with
  | leaf name as => exact ⟨every_attributesRead as, trivial⟩
  | line name text =>
      refine ⟨by simp, ?_⟩
      unfold Outline.lineNodes
      split <;> simp [Markup.Node.EveryIn, Markup.Node.Every]
  | block name as children =>
      refine ⟨every_attributesRead as, Markup.Node.everyIn_iff.2 fun n hn => ?_⟩
      rcases List.mem_append.1 hn with hn | hn
      · exact Markup.Node.everyIn_iff.1 (everyIn_nodes scope (level + 1) children) n hn
      · obtain rfl := List.mem_singleton.1 hn
        trivial

theorem everyIn_nodes (scope : Markup.Scope) (level : Nat) (os : List Outline) :
    Markup.Node.EveryIn (fun _ value => ∀ c ∈ value.toList, isValueChar c = true) (fun _ => True)
      (nodes scope level os) := by
  cases os with
  | nil => trivial
  | cons o rest => exact ⟨trivial, every_node scope level o, everyIn_nodes scope level rest⟩
end

/-- A script of known functions is read as it has been written if and only if it is faithful. -/
theorem ofText_toText_iff (hs : s.Known) : ofText s.toText = .ok s ↔ s.Faithful := by
  constructor
  · intro h
    -- what has been read is legible, so the document is a tree; the script is read from this tree,
    -- whose values hold no white space other than blanks
    have hlegible := legible_of_ofText h
    rw [ofText_toText hs hlegible] at h
    have held := held_of_ofNode granted_valueChars (every_node _ 0 _) h
    exact ⟨hlegible, fun t ht a ha => (held.fine t ht).2 a ha, (name_of_ofNode_tree h).symm⟩
  · intro h
    have hordered : s.Ordered := ordered_of_known hs h.toLegible
    exact ofText_toText_of_faithful (fun _ ht => hs.isBareName_of_mem ht) hordered h

end Script
end Recast
