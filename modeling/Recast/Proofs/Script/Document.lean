import Recast.Proofs.Script.Tree

/-!
# Document — scripts read from the documents they are written as

The document of a script is cut into the tags of its sections.  If its names are bare and its
characters are those of a document, it is a tree; if its values are read as they have been written,
the tree is read as the script again, but for blanks around its name: `Script.ofNode_tree`.
-/

namespace Recast

open Markup (Outline Scope)
open Markup.Outline (node nodes tagsAll texts textsAll Kept)

namespace Script

/-! ## The sections of a document -/

/-- The sections of a document after the one that holds the name. -/
def body (s : Script) : List Outline :=
  sectionOf "vars" (s.vars.toList.map variableOutline) ++
    [fold "rules" [] (s.rules.map Rule.outline)] ++
    sectionOf "maps" (s.maps.values.map Table.outline) ++
    sectionOf "filters" (s.filters.toList.map filterOutline)

def sections (s : Script) : List Outline :=
  .block "meta" [] [nameOutline s.name] :: s.body

def space : String := "http://www.culturegraph.org/metamorph"

/-- The attributes of the root besides the namespace. -/
def rootAttributes : List (String × String) :=
  [("version", "1"), ("entityMarker", ".")]

/-- The document of a script is its root with its sections. -/
theorem outline_eq (s : Script) :
    s.outline = .block "metamorph" (("xmlns", space) :: rootAttributes) s.sections := rfl

/-- The elements inside the sections, the name aside. -/
def parts (s : Script) : List Outline :=
  s.vars.toList.map variableOutline ++ s.rules.map Rule.outline ++
    s.maps.values.map Table.outline ++ s.filters.toList.map filterOutline

/-- The names of the elements that hold others together. -/
def sectionNames : List String :=
  ["meta", "name", "vars", "rules", "maps", "filters"]

/-- What the sections of a document look like. -/
inductive Section (s : Script) : Outline → Prop where
  | name : Section s (.block "meta" [] [nameOutline s.name])
  | empty {name : String} (h : name ∈ sectionNames) : Section s (.leaf name [])
  | holds {name : String} {children : List Outline} (h : name ∈ sectionNames)
      (hparts : children ⊆ s.parts) : Section s (.block name [] children)

/-- A section is left out if it is empty. -/
theorem mem_sectionOf {name : String} {children : List Outline} {o : Outline} :
    o ∈ sectionOf name children ↔ children ≠ [] ∧ o = .block name [] children := by
  unfold sectionOf
  cases children <;> simp

/-- The parts of a script are its variables, rules, tables and filters. -/
theorem mem_parts {s : Script} {o : Outline} :
    o ∈ s.parts ↔ o ∈ s.vars.toList.map variableOutline ∨ o ∈ s.rules.map Rule.outline ∨
      o ∈ s.maps.values.map Table.outline ∨ o ∈ s.filters.toList.map filterOutline := by
  rw [parts, List.mem_append, List.mem_append, List.mem_append, or_assoc, or_assoc]

/-- The sections behind the name: rules always, variables, tables and filters if there are any. -/
theorem mem_body {s : Script} {o : Outline} :
    o ∈ s.body ↔ o ∈ sectionOf "vars" (s.vars.toList.map variableOutline) ∨
      o = fold "rules" [] (s.rules.map Rule.outline) ∨
      o ∈ sectionOf "maps" (s.maps.values.map Table.outline) ∨
      o ∈ sectionOf "filters" (s.filters.toList.map filterOutline) := by
  rw [body, List.mem_append, List.mem_append, List.mem_append, List.mem_singleton, or_assoc,
    or_assoc]

/-- Every section is of one of the known kinds. -/
theorem section_of_mem {s : Script} {o : Outline} (h : o ∈ s.sections) : Section s o := by
  -- every section but the one of the name holds parts of the script
  have hholds : ∀ {name children}, name ∈ sectionNames → (∀ c ∈ children, c ∈ s.parts) →
      o ∈ sectionOf name children → Section s o := by
    intro name children hname hparts ho
    obtain ⟨-, rfl⟩ := mem_sectionOf.1 ho
    exact .holds hname hparts
  rcases List.mem_cons.1 h with rfl | h
  · exact .name
  rcases mem_body.1 h with ho | rfl | ho | ho
  · exact hholds (by decide) (fun c hc => mem_parts.2 (.inl hc)) ho
  · -- the section of the rules is there even without a rule
    have hparts : ∀ c ∈ s.rules.map Rule.outline, c ∈ s.parts :=
      fun c hc => mem_parts.2 (.inr (.inl hc))
    unfold fold
    cases hchildren : s.rules.map Rule.outline with
    | nil => exact .empty (by decide)
    | cons r rest => exact .holds (by decide) (hchildren ▸ hparts)
  · exact hholds (by decide) (fun c hc => mem_parts.2 (.inr (.inr (.inl hc)))) ho
  · exact hholds (by decide) (fun c hc => mem_parts.2 (.inr (.inr (.inr hc)))) ho

/-- Every part stands in a section. -/
theorem exists_section {s : Script} {o : Outline} (h : o ∈ s.parts) :
    ∃ name children, o ∈ children ∧ .block name [] children ∈ s.body := by
  have hne : ∀ {children : List Outline}, o ∈ children → children ≠ [] :=
    fun ho => List.ne_nil_of_mem ho
  rcases mem_parts.1 h with ho | ho | ho | ho
  · exact ⟨_, _, ho, mem_body.2 (.inl (mem_sectionOf.2 ⟨hne ho, rfl⟩))⟩
  · refine ⟨"rules", _, ho, mem_body.2 (.inr (.inl ?_))⟩
    rw [fold, if_neg (by simpa using hne ho)]
  · exact ⟨_, _, ho, mem_body.2 (.inr (.inr (.inl (mem_sectionOf.2 ⟨hne ho, rfl⟩))))⟩
  · exact ⟨_, _, ho, mem_body.2 (.inr (.inr (.inr (mem_sectionOf.2 ⟨hne ho, rfl⟩))))⟩

/-! ## Tags -/

def tags (s : Script) : List (String × List (String × String)) :=
  tagsAll s.sections

/-- The tags of elements are those of each of them. -/
theorem mem_tagsAll {os : List Outline} {t : String × List (String × String)} :
    t ∈ tagsAll os ↔ ∃ o ∈ os, t ∈ o.tags := by
  rw [tagsAll_eq_flatMap, List.mem_flatMap]

/-- The tags of a document are those of its parts, and tags without attributes around them. -/
theorem mem_tags {s : Script} {t : String × List (String × String)} (h : t ∈ s.tags) :
    t.1 ∈ sectionNames ∧ t.2 = [] ∨ ∃ o ∈ s.parts, t ∈ o.tags := by
  obtain ⟨o, ho, ht⟩ := mem_tagsAll.1 h
  cases section_of_mem ho with
  | name =>
      -- the section of the name may be empty
      have hnames : t = ("meta", []) ∨ t = ("name", []) := by
        unfold nameOutline at ht
        by_cases hempty : s.name = "" <;> simpa [hempty, Outline.tags, tagsAll] using ht
      rcases hnames with rfl | rfl
      · exact .inl ⟨by decide, rfl⟩
      · exact .inl ⟨by decide, rfl⟩
  | empty hname =>
      obtain rfl := List.mem_singleton.1 ht
      exact .inl ⟨hname, rfl⟩
  | holds hname hparts =>
      -- the tag is that of the section, or it is in a part
      rcases List.mem_cons.1 ht with rfl | ht
      · exact .inl ⟨hname, rfl⟩
      · obtain ⟨c, hc, ht⟩ := mem_tagsAll.1 ht
        exact .inr ⟨c, hparts hc, ht⟩

/-- The tags of a part are tags of its script. -/
theorem tags_of_part {s : Script} {o : Outline} (ho : o ∈ s.parts)
    {t : String × List (String × String)} (ht : t ∈ o.tags) : t ∈ s.tags := by
  obtain ⟨name, children, hmem, hsection⟩ := exists_section ho
  refine mem_tagsAll.2 ⟨_, List.mem_cons_of_mem _ hsection, ?_⟩
  rw [Outline.tags]
  exact List.mem_cons_of_mem _ (mem_tagsAll.2 ⟨o, hmem, ht⟩)

/-! ## Texts -/

theorem mem_textsAll {os : List Outline} {t : String} :
    t ∈ textsAll os ↔ ∃ o ∈ os, t ∈ o.texts := by
  induction os with
  | nil => simp [textsAll]
  | cons o rest ih => simp [textsAll, ih]

theorem textsAll_eq_nil {os : List Outline} (h : ∀ o ∈ os, o.texts = []) : textsAll os = [] := by
  refine List.eq_nil_iff_forall_not_mem.2 fun t ht => ?_
  obtain ⟨o, ho, ht⟩ := mem_textsAll.1 ht
  rw [h o ho] at ht
  cases ht

theorem texts_fold {name : String} {as : List (String × String)} {children : List Outline}
    (h : textsAll children = []) : (fold name as children).texts = [] := by
  unfold fold
  cases children with
  | nil => rfl
  | cons o rest => exact h

mutual
theorem texts_entry (e : Entry) : e.outline.texts = [] := by
  cases e with
  | mk name value entries => exact texts_fold (textsAll_entries entries)

theorem textsAll_entries (es : List Entry) : textsAll (Entry.outlines es) = [] := by
  cases es with
  | nil => rfl
  | cons e rest =>
      rw [Entry.outlines, textsAll, texts_entry e, textsAll_entries rest]
      rfl
end

theorem texts_dataRule (r : DataRule) : r.outline.texts = [] := by
  refine texts_fold (textsAll_eq_nil fun o ho => ?_)
  obtain ⟨c, -, rfl⟩ := List.mem_map.1 ho
  rfl

/-- No part of a script has texts. -/
theorem texts_part {s : Script} {o : Outline} (ho : o ∈ s.parts) : o.texts = [] := by
  rcases mem_parts.1 ho with ho | ho | ho | ho
  · obtain ⟨v, -, rfl⟩ := List.mem_map.1 ho
    rfl
  · obtain ⟨r, -, rfl⟩ := List.mem_map.1 ho
    cases r with
    | data r => exact texts_dataRule r
    -- a collecting rule holds rules on data only
    | collect c =>
        refine textsAll_eq_nil fun o ho => ?_
        obtain ⟨r, -, rfl⟩ := List.mem_map.1 ho
        exact texts_dataRule r
  · obtain ⟨t, -, rfl⟩ := List.mem_map.1 ho
    exact texts_fold (textsAll_entries t.entries)
  · obtain ⟨f, -, rfl⟩ := List.mem_map.1 ho
    rfl

/-- Only the name of a script is written as a text. -/
theorem eq_name_of_mem_texts {s : Script} {t : String} (h : t ∈ textsAll s.sections) :
    t = s.name := by
  obtain ⟨o, ho, ht⟩ := mem_textsAll.1 h
  cases section_of_mem ho with
  | name =>
      unfold nameOutline at ht
      by_cases hempty : s.name = ""
      · simp [hempty, texts, textsAll] at ht
      · simpa [hempty, texts, textsAll] using ht
  | empty hname => cases ht
  | holds hname hparts =>
      obtain ⟨c, hc, ht⟩ := mem_textsAll.1 ht
      rw [texts_part (hparts hc)] at ht
      cases ht

/-! ## Reading the sections -/

section Reading

variable {scope : Scope} {level : Nat} {t : Script}

def nameRead (name : String) : String :=
  Text.trim (Markup.textRead name)

/-- The name of a script stands in an element of its own. -/
theorem node_nameOutline (name : String) :
    (node scope level (nameOutline name)).name = "name" ∧
      (node scope level (nameOutline name)).leadingText = Markup.textRead name := by
  unfold nameOutline
  by_cases hempty : name = ""
  · subst hempty
    exact ⟨rfl, rfl⟩
  · rw [if_neg hempty, node, Markup.Outline.lineNodes, if_neg hempty]
    exact ⟨rfl, rfl⟩

/-- The section with the name gives the script its name. -/
theorem addSection_meta (name : String) :
    addSection t (node scope level (.block "meta" [] [nameOutline name])) =
      .ok { t with name := nameRead name } := by
  obtain ⟨hname, htext⟩ := @node_nameOutline scope (level + 1) name
  have hfind : (node scope level (.block "meta" [] [nameOutline name])).elements.find?
      (fun e => e.name = "name") = some (node scope (level + 1) (nameOutline name)) := by
    rw [Outline.elements_block]
    simp [hname]
  have hmeta : (node scope level (.block "meta" [] [nameOutline name])).name = "meta" := rfl
  rw [addSection, hmeta]
  simp only [hfind, htext]
  rfl

/-- The elements of a section are read back. -/
theorem mapM_elements_block {α : Type} {outline : α → Outline}
    {read : Markup.Node → Except ReadError α} {items : List α}
    (hread : ∀ a ∈ items, read (node scope (level + 1) (outline a)) = .ok a)
    (name : String) (as : List (String × String)) :
    (node scope level (.block name as (items.map outline))).elements.mapM read = .ok items := by
  rw [Outline.elements_block, List.map_map]
  exact mapM_map_eq_ok hread

/-- A section that is left out if it is empty adds what its elements are read as. -/
theorem foldlM_sectionOf {α : Type} {f : α → Outline} {r : Markup.Node → Except ReadError α}
    {g : List α → Script} {items : List α} (name : String)
    (hread : ∀ a ∈ items, r (node scope (level + 1) (f a)) = .ok a)
    (hadd : ∀ n, n.name = name → n.elements.mapM r = .ok items → addSection t n = .ok (g items))
    (hempty : g [] = t) :
    ((sectionOf name (items.map f)).map (node scope level)).foldlM addSection t =
      .ok (g items) := by
  have hblock := hadd _ rfl (mapM_elements_block hread name [])
  unfold sectionOf
  cases items with
  | nil =>
      rw [hempty]
      rfl
  | cons a rest =>
      -- there is one section, whose items are those of the list
      have hone : sectionOf name ((a :: rest).map f) = [.block name [] ((a :: rest).map f)] := rfl
      calc ((sectionOf name ((a :: rest).map f)).map (node scope level)).foldlM addSection t
          = addSection t (node scope level (.block name [] ((a :: rest).map f))) >>= pure := by
            rw [hone, List.map_singleton, List.foldlM_cons]
            rfl
        _ = .ok (g (a :: rest)) := by
            rw [hblock]
            rfl

theorem addSection_vars {n : Markup.Node} (hname : n.name = "vars") {vs : List (String × String)}
    (h : n.elements.mapM variable_ = .ok vs) :
    addSection t n = .ok { t with vars := vs.foldl (fun m v => m.put v.1 v.2) t.vars } := by
  rw [addSection, hname]
  simp only [h]
  rfl

/-- The section with rules adds the rules that can be read in it. -/
theorem addSection_rules {n : Markup.Node} (hname : n.name = "rules") {rs : List Rule}
    (h : n.elements.mapM rule = .ok rs) :
    addSection t n = .ok { t with rules := t.rules ++ rs } := by
  rw [addSection, hname]
  simp only [h]
  rfl

/-- The section with tables adds the tables that can be read in it. -/
theorem addSection_maps {n : Markup.Node} (hname : n.name = "maps") {ts : List Table}
    (h : n.elements.mapM table = .ok ts) :
    addSection t n = .ok { t with maps := ts.foldl (fun m t => m.put t.name t) t.maps } := by
  rw [addSection, hname]
  simp only [h]
  rfl

theorem addSection_filters {n : Markup.Node} (hname : n.name = "filters")
    {fs : List (String × Filter)} (h : n.elements.mapM namedFilter = .ok fs) :
    addSection t n = .ok { t with filters := fs.foldl (fun m f => m.put f.1 f.2) t.filters } := by
  rw [addSection, hname]
  simp only [h]
  rfl

/-- The sections after the name are read back one after the other. -/
theorem foldlM_vars {vs : List (String × String)}
    (h : ∀ v ∈ vs, KeptTags (variableOutline v).tags) :
    ((sectionOf "vars" (vs.map variableOutline)).map (node scope level)).foldlM addSection t =
      .ok { t with vars := vs.foldl (fun m v => m.put v.1 v.2) t.vars } := by
  have hread : ∀ v ∈ vs, variable_ (node scope (level + 1) (variableOutline v)) = .ok v :=
    fun v hv => variable_outline (h v hv)
  exact foldlM_sectionOf (g := fun vs => { t with vars := vs.foldl _ t.vars }) "vars" hread
    (fun _ hn helements => addSection_vars hn helements) rfl

/-- Rules that have been written are read again. -/
theorem addSection_fold_rules {rs : List Rule}
    (h : ∀ r ∈ rs, KeptTags r.outline.tags)
    (hcollect : ∀ c, .collect c ∈ rs → c.kind ≠ "data" ∧ "name" ∉ c.attributes.keys) :
    addSection t (node scope level (fold "rules" [] (rs.map Rule.outline))) =
      .ok { t with rules := t.rules ++ rs } := by
  have hread : ∀ r ∈ rs, rule (node scope (level + 1) r.outline) = .ok r := by
    intro r hr
    exact rule_outline (h r hr) fun c hc => hcollect c (hc ▸ hr)
  have hblock := mapM_elements_block hread "rules" []
  unfold fold
  cases rs with
  | nil =>
      have hleaf : (node scope level (.leaf "rules" [])).elements.mapM rule = .ok [] := rfl
      exact addSection_rules rfl hleaf
  | cons r rest => exact addSection_rules rfl hblock

/-- Tables that have been written are read again. -/
theorem foldlM_maps {ts : List Table} (h : ∀ m ∈ ts, KeptTags m.outline.tags) :
    ((sectionOf "maps" (ts.map Table.outline)).map (node scope level)).foldlM addSection t =
      .ok { t with maps := ts.foldl (fun m t => m.put t.name t) t.maps } := by
  have hread : ∀ m ∈ ts, table (node scope (level + 1) m.outline) = .ok m :=
    fun m hm => table_outline (h m hm)
  exact foldlM_sectionOf (g := fun ts => { t with maps := ts.foldl _ t.maps }) "maps" hread
    (fun _ hn helements => addSection_maps hn helements) rfl

/-- Filters that have been written are read again. -/
theorem foldlM_filters {fs : List (String × Filter)}
    (h : ∀ f ∈ fs, KeptTags (filterOutline f).tags) :
    ((sectionOf "filters" (fs.map filterOutline)).map (node scope level)).foldlM addSection t =
      .ok { t with filters := fs.foldl (fun m f => m.put f.1 f.2) t.filters } := by
  have hread : ∀ f ∈ fs, namedFilter (node scope (level + 1) (filterOutline f)) = .ok f :=
    fun f hf => namedFilter_outline (h f hf)
  exact foldlM_sectionOf (g := fun fs => { t with filters := fs.foldl _ t.filters }) "filters" hread
    (fun _ hn helements => addSection_filters hn helements) rfl

end Reading

/-! ## Reading the document -/

def tree (s : Script) : Markup.Node :=
  node (Markup.rootScope space) 0 (.block "metamorph" rootAttributes s.sections)

/-- A script whose tables are kept under their own names, and whose collect rules can neither be
taken for data rules nor have two names. -/
structure Ordered (s : Script) : Prop where
  tables : ∀ p ∈ s.maps.toList, p.2.name = p.1
  collects : ∀ r, .collect r ∈ s.rules → r.kind ≠ "data" ∧ "name" ∉ r.attributes.keys

/-- Writing the pairs of a map into an empty one gives the map. -/
theorem foldl_put_toList {α : Type} (m : OrderedMap String α) :
    m.toList.foldl (fun m p => m.put p.1 p.2) .empty = m := by
  have hfold := OrderedMap.foldl_put_ofList [] m.toList
  rw [List.nil_append, OrderedMap.ofList_toList] at hfold
  exact hfold

/-- Writing tables under their own names gives the map that they come from. -/
theorem foldl_put_tables {m : OrderedMap String Table} (h : ∀ p ∈ m.toList, p.2.name = p.1) :
    m.values.foldl (fun m t => m.put t.name t) .empty = m := by
  have hpairs : m.values.map (fun t => (t.name, t)) = m.toList := by
    rw [OrderedMap.values, List.map_map]
    refine (List.map_congr_left fun p hp => ?_).trans (List.map_id _)
    exact Prod.ext (h p hp) rfl
  have hfold := foldl_put_toList m
  rw [← hpairs, List.foldl_map] at hfold
  exact hfold

/-- The tree of a document is read as the script again, but for the name. -/
theorem ofNode_tree {s : Script} (hs : s.Ordered) (hkept : KeptTags s.tags) :
    ofNode s.tree = .ok { s with name := nameRead s.name } := by
  -- every part keeps its tags, as they are among those of the script
  have hpart : ∀ o ∈ s.parts, KeptTags o.tags := fun o ho t ht => hkept t (tags_of_part ho ht)
  have hvars : ∀ v ∈ s.vars.toList, KeptTags (variableOutline v).tags :=
    fun v hv => hpart _ (mem_parts.2 (.inl (List.mem_map_of_mem hv)))
  have hrules : ∀ r ∈ s.rules, KeptTags r.outline.tags :=
    fun r hr => hpart _ (mem_parts.2 (.inr (.inl (List.mem_map_of_mem hr))))
  have hmaps : ∀ m ∈ s.maps.values, KeptTags m.outline.tags :=
    fun m hm => hpart _ (mem_parts.2 (.inr (.inr (.inl (List.mem_map_of_mem hm)))))
  have hfilters : ∀ f ∈ s.filters.toList, KeptTags (filterOutline f).tags :=
    fun f hf => hpart _ (mem_parts.2 (.inr (.inr (.inr (List.mem_map_of_mem hf)))))
  have helements : s.tree.elements = s.sections.map (node (Markup.rootScope space) 1) :=
    Outline.elements_block _ 0 "metamorph" rootAttributes s.sections
  have hname : s.tree.name = "metamorph" := rfl
  calc ofNode s.tree
      = (s.body.map (node (Markup.rootScope space) 1)).foldlM addSection
          { empty with name := nameRead s.name } := by
        rw [ofNode, if_pos hname, helements, sections, List.map_cons, List.foldlM_cons,
          addSection_meta, ok_bind]
    _ = ((sectionOf "maps" (s.maps.values.map Table.outline) ++
            sectionOf "filters" (s.filters.toList.map filterOutline)).map
          (node (Markup.rootScope space) 1)).foldlM addSection
          { empty with name := nameRead s.name, vars := s.vars, rules := s.rules } := by
        simp only [body, List.map_append, List.append_assoc]
        rw [foldlM_append_ok (foldlM_vars hvars), List.map_singleton, List.singleton_append,
          List.foldlM_cons, addSection_fold_rules hrules hs.collects, ok_bind]
        simp only [empty, foldl_put_toList, List.nil_append]
    _ = .ok { s with name := nameRead s.name } := by
        rw [List.map_append, foldlM_append_ok (foldlM_maps hmaps), foldlM_filters hfilters]
        simp only [empty, foldl_put_toList, foldl_put_tables hs.tables]

/-- No other section is taken for the one with the name. -/
theorem name_ne_meta_of_mem_body {s : Script} {o : Outline} (h : o ∈ s.body) (scope : Scope) (level : Nat) :
    (node scope level o).name ≠ "meta" := by
  have hsection : ∀ {name children}, name ≠ "meta" → o ∈ sectionOf name children →
      (node scope level o).name ≠ "meta" := by
    intro name children hname ho
    obtain ⟨-, rfl⟩ := mem_sectionOf.1 ho
    exact hname
  rcases mem_body.1 h with ho | rfl | ho | ho
  · exact hsection (by decide) ho
  · -- a section is named alike with and without children
    have hrules :
        (node scope level (fold "rules" [] (s.rules.map Rule.outline))).name = "rules" := by
      unfold fold
      cases s.rules.map Rule.outline <;> rfl
    rw [hrules]
    decide
  · exact hsection (by decide) ho
  · exact hsection (by decide) ho

/-- No other section changes the name. -/
theorem name_of_addSection {t t' : Script} {n : Markup.Node} (hn : n.name ≠ "meta")
    (h : addSection t n = .ok t') : t'.name = t.name := by
  unfold addSection at h
  split at h
  · rename_i hmeta
    exact absurd hmeta hn
  all_goals first
    | (obtain ⟨_, -, h⟩ := bind_eq_ok.1 h
       obtain rfl := Except.ok.inj h
       rfl)
    | cases h

/-- Whatever script is read from the tree of a document, its name is the name as it is read. -/
theorem name_of_ofNode_tree {s s' : Script} (h : ofNode s.tree = .ok s') :
    s'.name = nameRead s.name := by
  have helements : s.tree.elements = s.sections.map (node (Markup.rootScope space) 1) :=
    Outline.elements_block _ 0 "metamorph" rootAttributes s.sections
  have hname : s.tree.name = "metamorph" := rfl
  rw [ofNode, if_pos hname, helements, sections, List.map_cons, List.foldlM_cons,
    addSection_meta] at h
  refine foldlM_ok_invariant (p := fun t : Script => t.name = nameRead s.name) ?_ ?_ h
  · intro n hn t t' ht hstep
    obtain ⟨o, ho, rfl⟩ := List.mem_map.1 hn
    exact (name_of_addSection (name_ne_meta_of_mem_body ho _ _) hstep).trans ht
  · rfl

end Script
end Recast
