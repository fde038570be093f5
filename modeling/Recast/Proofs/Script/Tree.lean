import Recast.Proofs.Markup.Tree
import Recast.Proofs.OrderedMap
import Recast.Proofs.Result
import Recast.Script.Reader
import Recast.Script.Writer

/-!
# Tree — scripts read from the trees they are written as

Every part of a script is read back from the tree that stands where it has been written, if the
values of its attributes are read as they have been written.
-/

namespace Recast

open Markup (Outline Scope)
open Markup.Outline (node nodes gapNode Kept)

namespace Script

/-! ## What a tree shows -/

/-- A tree shows an element with a name, attributes without namespace, and elements inside it. -/
structure Shows (n : Markup.Node) (name : String) (as : List (String × String))
    (inside : List Markup.Node) : Prop where
  name : n.name = name
  attributes : n.attributes = as.map fun a => ⟨none, a.1, a.2⟩
  elements : n.elements = inside

variable {s : Scope} {level : Nat}

/-- An element without content is shown. -/
theorem shows_leaf (name : String) {as : List (String × String)} (h : Kept as) :
    Shows (node s level (.leaf name as)) name as [] :=
  ⟨rfl, Outline.attributesRead_kept h, rfl⟩

/-- An element with others inside is shown. -/
theorem shows_block (name : String) {as : List (String × String)} (h : Kept as)
    (children : List Outline) :
    Shows (node s level (.block name as children)) name as (children.map (node s (level + 1))) :=
  ⟨rfl, Outline.attributesRead_kept h, Outline.elements_block s level name as children⟩

/-- An element that is one tag if nothing is inside is shown either way. -/
theorem shows_fold (name : String) {as : List (String × String)} (h : Kept as)
    (children : List Outline) :
    Shows (node s level (fold name as children)) name as (children.map (node s (level + 1))) := by
  unfold fold
  cases children with
  | nil => exact shows_leaf name h
  | cons o rest => exact shows_block name h (o :: rest)

/-- The attributes of an element that is shown are found. -/
theorem Shows.attribute? {n : Markup.Node} {name : String} {as : List (String × String)}
    {inside : List Markup.Node} (h : Shows n name as inside) (k : String) :
    n.attribute? k = (as.find? fun a => a.1 = k).map Prod.snd := by
  rw [Markup.Node.attribute?, h.attributes]
  clear h
  induction as with
  | nil => rfl
  | cons a rest ih =>
      by_cases hk : a.1 = k
      · simp [hk]
      · simpa [hk] using ih

/-- An attribute that is found has been given. -/
theorem Shows.required {n : Markup.Node} {name k v : String} {as : List (String × String)}
    {inside : List Markup.Node} (h : Shows n name as inside)
    (hfind : (as.find? fun a => a.1 = k).map Prod.snd = some v) : required n k = .ok v := by
  rw [Script.required, h.attribute? k, hfind]

/-! ## Tags -/

theorem tags_fold (name : String) (as : List (String × String)) (children : List Outline) :
    (fold name as children).tags = (name, as) :: Outline.tagsAll children := by
  unfold fold
  cases children <;> simp [Outline.tags, Outline.tagsAll]

theorem tagsAll_eq_flatMap (os : List Outline) : Outline.tagsAll os = os.flatMap Outline.tags := by
  induction os with
  | nil => rfl
  | cons o rest ih => rw [Outline.tagsAll, ih, List.flatMap_cons]

/-- Tags whose values are read as they have been written. -/
def KeptTags (ts : List (String × List (String × String))) : Prop :=
  ∀ t ∈ ts, Kept t.2

/-- Kept tags of an element are its own and those of the elements inside it. -/
theorem keptTags_fold {name : String} {as : List (String × String)} {children : List Outline}
    (h : KeptTags (fold name as children).tags) :
    Kept as ∧ ∀ o ∈ children, KeptTags o.tags := by
  rw [tags_fold, tagsAll_eq_flatMap] at h
  refine ⟨h _ List.mem_cons_self, fun o ho t ht => ?_⟩
  exact h t (List.mem_cons_of_mem _ (List.mem_flatMap.2 ⟨o, ho, ht⟩))

theorem keptTags_block {name : String} {as : List (String × String)} {children : List Outline}
    (h : KeptTags (Outline.block name as children).tags) :
    Kept as ∧ ∀ o ∈ children, KeptTags o.tags := by
  rw [Outline.tags, tagsAll_eq_flatMap] at h
  refine ⟨h _ List.mem_cons_self, fun o ho t ht => ?_⟩
  exact h t (List.mem_cons_of_mem _ (List.mem_flatMap.2 ⟨o, ho, ht⟩))

theorem keptTags_leaf {name : String} {as : List (String × String)}
    (h : KeptTags (Outline.leaf name as).tags) : Kept as :=
  h _ (List.mem_singleton.2 rfl)

/-! ## Rules -/

def DataRule.attributes (r : DataRule) : List (String × String) :=
  ("source", r.source) :: optional "name" r.name ++ optional "filter" r.filter

/-- The attributes of a call are read back. -/
theorem attributesOf_shows {n : Markup.Node} {name : String} {m : OrderedMap String String}
    {inside : List Markup.Node} (h : Shows n name m.toList inside) : attributesOf n = m := by
  rw [attributesOf, h.attributes, List.map_map]
  have hsame : (m.toList.map ((fun a : Markup.Attribute => (a.name, a.value)) ∘
      fun a => ⟨none, a.1, a.2⟩)) = m.toList := List.map_id' m.toList
  rw [hsame, OrderedMap.ofList_toList]

/-- The attributes of a data rule are told apart by their names. -/
theorem find?_attributes (r : DataRule) :
    (r.attributes.find? fun a => a.1 = "source").map Prod.snd = some r.source ∧
      (r.attributes.find? fun a => a.1 = "name").map Prod.snd = r.name ∧
      (r.attributes.find? fun a => a.1 = "filter").map Prod.snd = r.filter := by
  unfold DataRule.attributes optional
  cases r.name <;> cases r.filter <;> simp

/-- A data rule is read back. -/
theorem dataRule_outline {r : DataRule} (h : KeptTags r.outline.tags) :
    (node s level r.outline).name = "data" ∧ dataRule (node s level r.outline) = .ok r := by
  have hfold : KeptTags (fold "data" r.attributes (r.functions.map Call.outline)).tags := h
  obtain ⟨hown, hcalls⟩ := keptTags_fold hfold
  -- the rule keeps its own attributes, and its calls are its elements
  have hshows : Shows (node s level r.outline) "data" r.attributes
      ((r.functions.map Call.outline).map (node s (level + 1))) := shows_fold "data" hown _
  obtain ⟨hsource, hname, hfilter⟩ := find?_attributes r
  have hcallsRead : (node s level r.outline).elements.map
      (fun f => (⟨f.name, attributesOf f⟩ : Call)) = r.functions := by
    rw [hshows.elements, List.map_map, List.map_map]
    refine (List.map_congr_left fun c hc => ?_).trans (List.map_id _)
    have hkept := keptTags_leaf (hcalls c.outline (List.mem_map_of_mem hc))
    have hcall : Shows (node s (level + 1) c.outline) c.name c.attributes.toList [] :=
      shows_leaf c.name hkept
    exact congrArg₂ Call.mk hcall.name (attributesOf_shows hcall)
  refine ⟨hshows.name, ?_⟩
  simp only [dataRule, hshows.required hsource, hshows.attribute?, hname, hfilter, hcallsRead]
  rfl

/-- The attributes of a collect rule besides its name are read back. -/
theorem attributesBut_shows {n : Markup.Node} {name value : String} {m : OrderedMap String String}
    {inside : List Markup.Node} (h : Shows n name (("name", value) :: m.toList) inside)
    (hname : "name" ∉ m.keys) : attributesBut "name" n = m := by
  -- only the attribute in front is left out
  have hothers : ∀ a ∈ m.toList.map fun a => (⟨none, a.1, a.2⟩ : Markup.Attribute),
      decide (a.name ≠ "name") = true := by
    intro a ha
    obtain ⟨b, hb, rfl⟩ := List.mem_map.1 ha
    have hne : b.1 ≠ "name" := fun e => hname (e ▸ List.mem_map_of_mem hb)
    simpa using hne
  have hsame : (m.toList.map ((fun a : Markup.Attribute => (a.name, a.value)) ∘
      fun a => ⟨none, a.1, a.2⟩)) = m.toList := List.map_id' m.toList
  have hkept : n.attributes.filter (fun a => a.name ≠ "name") =
      m.toList.map fun a => ⟨none, a.1, a.2⟩ := by
    rw [h.attributes, List.map_cons, List.filter_cons_of_neg (by simp),
      List.filter_eq_self.2 hothers]
  calc attributesBut "name" n
      = OrderedMap.ofList ((m.toList.map fun a => (⟨none, a.1, a.2⟩ : Markup.Attribute)).map
          fun a => (a.name, a.value)) := by rw [attributesBut, hkept]
    _ = OrderedMap.ofList m.toList := by rw [List.map_map, hsame]
    _ = m := OrderedMap.ofList_toList m

/-- A rule is read back, if a collect rule cannot be taken for a data rule and has one name. -/
theorem rule_outline {r : Rule} (h : KeptTags r.outline.tags)
    (hcollect : ∀ c, r = .collect c → c.kind ≠ "data" ∧ "name" ∉ c.attributes.keys) :
    rule (node s level r.outline) = .ok r := by
  cases r with
  | data r =>
      have hread : (node s level (Rule.data r).outline).name = "data" ∧
          dataRule (node s level (Rule.data r).outline) = .ok r := dataRule_outline h
      simp only [rule, hread.1, if_true, hread.2]
      rfl
  | collect c =>
      obtain ⟨hkind, hname⟩ := hcollect c rfl
      obtain ⟨hown, hinputs⟩ := keptTags_block h
      have hshows : Shows (node s level (Rule.collect c).outline) c.kind
          (("name", c.name) :: c.attributes.toList)
          ((c.inputs.map DataRule.outline).map (node s (level + 1))) := shows_block c.kind hown _
      -- what the rule collects are rules on data
      have hrules : (node s level (Rule.collect c).outline).elements.mapM (inputRule c.kind) =
          .ok c.inputs := by
        rw [hshows.elements, List.map_map]
        refine mapM_map_eq_ok fun r hr => ?_
        have hread : (node s (level + 1) r.outline).name = "data" ∧
            dataRule (node s (level + 1) r.outline) = .ok r :=
          dataRule_outline (hinputs r.outline (List.mem_map_of_mem hr))
        rw [Function.comp_apply, inputRule, if_pos hread.1, hread.2]
      have hrequired : required (node s level (Rule.collect c).outline) "name" = .ok c.name :=
        hshows.required (by simp)
      simp only [rule, hshows.name, if_neg hkind, hrules, hrequired,
        attributesBut_shows hshows hname]
      rfl

/-! ## Tables -/

theorem isElement_node (o : Outline) : (node s level o).isElement = true := by
  cases o <;> rfl

/-- An entry is read from its name, its value and the entries inside it. -/
theorem entry_element {n : Markup.Node} (h : n.isElement = true) {name : String}
    {entries : List Entry} (hname : required n "name" = .ok name)
    (hentries : entriesIn n.children = .ok entries) :
    entry n = .ok ⟨name, n.attribute? "value", entries⟩ := by
  cases n with
  | element tag label as children =>
      have hinside : entriesIn children = .ok entries := hentries
      simp only [entry, hname, hinside]
      rfl
  | text t => cases h
  | mark => cases h

/-- An element among the nodes of a table is one more entry. -/
theorem entriesIn_element {n : Markup.Node} (h : n.isElement = true) {rest : List Markup.Node}
    {e : Entry} {entries : List Entry} (he : entry n = .ok e) (hrest : entriesIn rest = .ok entries) :
    entriesIn (n :: rest) = .ok (e :: entries) := by
  cases n with
  | element tag label as children =>
      simp only [entriesIn, he, hrest]
      rfl
  | text t => cases h
  | mark => cases h

/-- The entries inside an element are read back if they are between the line breaks. -/
theorem entriesIn_fold (name : String) (as : List (String × String)) {es : List Entry}
    (h : entriesIn (nodes s (level + 1) (Entry.outlines es) ++ [gapNode level]) = .ok es) :
    entriesIn (node s level (fold name as (Entry.outlines es))).children = .ok es := by
  cases es with
  | nil => rfl
  | cons e rest => exact h

mutual
/-- An entry of a table is read back. -/
theorem entry_outline (s : Scope) (level : Nat) (e : Entry) (h : KeptTags e.outline.tags) :
    entry (node s level e.outline) = .ok e := by
  cases e with
  | mk name value entries =>
      have htags : KeptTags (fold "entry" (("name", name) :: optional "value" value)
          (Entry.outlines entries)).tags := h
      have hown := (keptTags_fold htags).1
      rw [tags_fold] at htags
      -- the entries inside are read one level deeper
      have hinside := entriesIn_outlines s (level + 1) entries
        (fun t ht => htags t (List.mem_cons_of_mem _ ht)) [gapNode level] rfl
      have hshows : Shows (node s level (Entry.outline ⟨name, value, entries⟩)) "entry"
          (("name", name) :: optional "value" value)
          ((Entry.outlines entries).map (node s (level + 1))) := shows_fold "entry" hown _
      have hvalue : (node s level (Entry.outline ⟨name, value, entries⟩)).attribute? "value" =
          value := by
        rw [hshows.attribute?]
        cases value <;> simp [optional]
      have hname : required (node s level (Entry.outline ⟨name, value, entries⟩)) "name" =
          .ok name := hshows.required (by simp)
      have hentry := entry_element (isElement_node _) hname (entriesIn_fold "entry" _ hinside)
      rw [hvalue] at hentry
      exact hentry

/-- The entries of a table are read back. -/
theorem entriesIn_outlines (s : Scope) (level : Nat) (es : List Entry)
    (h : KeptTags (Outline.tagsAll (Entry.outlines es))) (rest : List Markup.Node)
    (hrest : entriesIn rest = .ok []) :
    entriesIn (nodes s level (Entry.outlines es) ++ rest) = .ok es := by
  cases es with
  | nil => exact hrest
  | cons e more =>
      have hfirst := entry_outline s level e fun t ht =>
        h t (by simp [Entry.outlines, Outline.tagsAll, ht])
      have hmore := entriesIn_outlines s level more (fun t ht =>
        h t (by simp [Entry.outlines, Outline.tagsAll, ht])) rest hrest
      exact entriesIn_element (isElement_node _) hfirst hmore
end

/-- A table is read back. -/
theorem table_outline {t : Table} (h : KeptTags t.outline.tags) :
    table (node s level t.outline) = .ok t := by
  have htags : KeptTags (fold "map" [("name", t.name)] (Entry.outlines t.entries)).tags := h
  have hown := (keptTags_fold htags).1
  rw [tags_fold] at htags
  have hinside := entriesIn_outlines s (level + 1) t.entries
    (fun u hu => htags u (List.mem_cons_of_mem _ hu)) [gapNode level] rfl
  have hshows : Shows (node s level t.outline) "map" [("name", t.name)]
      ((Entry.outlines t.entries).map (node s (level + 1))) := shows_fold "map" hown _
  have hname : required (node s level t.outline) "name" = .ok t.name := hshows.required (by simp)
  have hentries : entriesIn (node s level t.outline).children = .ok t.entries :=
    entriesIn_fold "map" _ hinside
  simp only [table, hname, hentries]
  rfl

/-! ## Variables and filters -/

def variableOutline (v : String × String) : Outline :=
  .leaf "var" [("name", v.1), ("value", v.2)]

/-- A variable that has been written is read again. -/
theorem variable_outline {v : String × String} (h : KeptTags (variableOutline v).tags) :
    variable_ (node s level (variableOutline v)) = .ok v := by
  have hshows : Shows (node s level (variableOutline v)) "var" [("name", v.1), ("value", v.2)] [] :=
    shows_leaf "var" (keptTags_leaf h)
  have hname : required (node s level (variableOutline v)) "name" = .ok v.1 :=
    hshows.required (by simp)
  simp only [variable_, hname, hshows.attribute?]
  rfl

def filterOutline (f : String × Filter) : Outline :=
  .leaf "filter" [("name", f.1), ("type", f.2.dialect.word), ("expression", f.2.expression)]

theorem ofWord?_word (d : Dialect) : Dialect.ofWord? d.word = some d := by
  cases d <;> rfl

/-- A filter that has been written is read again under its name. -/
theorem namedFilter_outline {f : String × Filter} (h : KeptTags (filterOutline f).tags) :
    namedFilter (node s level (filterOutline f)) = .ok f := by
  have hshows : Shows (node s level (filterOutline f)) "filter"
      [("name", f.1), ("type", f.2.dialect.word), ("expression", f.2.expression)] [] :=
    shows_leaf "filter" (keptTags_leaf h)
  have hname : required (node s level (filterOutline f)) "name" = .ok f.1 :=
    hshows.required (by simp)
  have hexpression : required (node s level (filterOutline f)) "expression" =
      .ok f.2.expression := hshows.required (by simp)
  have htype : (node s level (filterOutline f)).attribute? "type" = some f.2.dialect.word := by
    rw [hshows.attribute?]
    simp
  simp only [namedFilter, hname, hexpression, htype, ofWord?_word]
  rfl

end Script
end Recast
