import Recast.Proofs.Markup.Legal
import Recast.Proofs.Script.Document

/-!
# Held — what scripts take over from trees

Whatever a script holds that has been read from a tree, it holds from an attribute or a text of the
tree.  So what is true of all of these is true of the attributes with which the script is written
again, and no tag of it gives an attribute twice: `Script.held_of_ofNode`.
-/

namespace Recast

open Markup (Outline)
open Markup.Node (EveryIn everyIn_iff)

namespace Script

/-- What is true of all attributes and texts of some trees, and of what may be missing in them. -/
structure Granted (A : String → String → Prop) (T : String → Prop) : Prop where
  value : A "value" ""
  dialect : ∀ d : Dialect, A "type" d.word
  text : T ""
  trim : ∀ t, T t → T (Text.trim t)

/-- The attributes of a tag are as granted, and none of them is given twice. -/
def Fine (A : String → String → Prop) (as : List (String × String)) : Prop :=
  (as.map Prod.fst).Nodup ∧ ∀ a ∈ as, A a.1 a.2

def FineTags (A : String → String → Prop) (o : Outline) : Prop :=
  ∀ t ∈ o.tags, Fine A t.2

/-- All parts of a script are written with fine tags. -/
structure Held (A : String → String → Prop) (T : String → Prop) (s : Script) : Prop where
  name : T s.name
  vars : ∀ v ∈ s.vars.toList, FineTags A (variableOutline v)
  rules : ∀ r ∈ s.rules, FineTags A r.outline
  maps : ∀ p ∈ s.maps.toList, FineTags A p.2.outline
  filters : ∀ f ∈ s.filters.toList, FineTags A (filterOutline f)

variable {A : String → String → Prop} {T : String → Prop}

/-! ## Outlines -/

/-- An element without content is fine if its attributes are. -/
theorem fineTags_leaf {name : String} {as : List (String × String)} (h : Fine A as) :
    FineTags A (.leaf name as) := by
  intro t ht
  obtain rfl := List.mem_singleton.1 ht
  exact h

/-- An element is fine if its attributes and the elements inside it are. -/
theorem fineTags_fold {name : String} {as : List (String × String)} {children : List Outline}
    (h : Fine A as) (hchildren : ∀ o ∈ children, FineTags A o) :
    FineTags A (fold name as children) := by
  intro t ht
  rw [tags_fold, List.mem_cons, mem_tagsAll] at ht
  rcases ht with rfl | ⟨o, ho, ht⟩
  · exact h
  · exact hchildren o ho t ht

theorem fineTags_block {name : String} {as : List (String × String)} {children : List Outline}
    (h : Fine A as) (hchildren : ∀ o ∈ children, FineTags A o) :
    FineTags A (.block name as children) := by
  intro t ht
  rw [Outline.tags, List.mem_cons, mem_tagsAll] at ht
  rcases ht with rfl | ⟨o, ho, ht⟩
  · exact h
  · exact hchildren o ho t ht

/-! ## Parts -/

/-- An attribute that may be missing is as granted if its value is. -/
theorem of_optional {name : String} {value : Option String} (h : ∀ v, value = some v → A name v) :
    ∀ a ∈ optional name value, A a.1 a.2 := by
  cases value with
  | none => simp [optional]
  | some v => simpa [optional] using h v rfl

theorem fine_named {name value : String} {k : String} (hk : k ≠ "name") (hname : A "name" name)
    (hvalue : A k value) : Fine A [("name", name), (k, value)] :=
  ⟨by simp [hk.symm], by simp [hname, hvalue]⟩

/-- The tags of a data rule are fine if its parts are as granted. -/
theorem DataRule.fineTags {r : DataRule} (hsource : A "source" r.source)
    (hname : ∀ v, r.name = some v → A "name" v) (hfilter : ∀ v, r.filter = some v → A "filter" v)
    (hfunctions : ∀ c ∈ r.functions, Fine A c.attributes.toList) : FineTags A r.outline := by
  -- the attributes of the rule itself, of which two may be missing
  have hown : Fine A r.attributes := by
    constructor
    · unfold DataRule.attributes optional
      cases r.name <;> cases r.filter <;> simp
    · intro a ha
      rw [DataRule.attributes, List.mem_append, List.mem_cons] at ha
      rcases ha with (rfl | ha) | ha
      · exact hsource
      · exact of_optional hname a ha
      · exact of_optional hfilter a ha
  refine fineTags_fold hown fun o ho => ?_
  obtain ⟨c, hc, rfl⟩ := List.mem_map.1 ho
  exact fineTags_leaf (hfunctions c hc)

/-- The name of a collect rule stands in front of its attributes, so none of these is a name. -/
theorem CollectRule.fineTags {r : CollectRule} (hname : A "name" r.name)
    (hattributes : Fine A r.attributes.toList) (hnew : "name" ∉ r.attributes.keys)
    (hinputs : ∀ d ∈ r.inputs, FineTags A d.outline) : FineTags A (Rule.collect r).outline := by
  have hown : Fine A (("name", r.name) :: r.attributes.toList) :=
    ⟨List.nodup_cons.2 ⟨hnew, hattributes.1⟩, List.forall_mem_cons.2 ⟨hname, hattributes.2⟩⟩
  refine fineTags_block hown fun o ho => ?_
  obtain ⟨d, hd, rfl⟩ := List.mem_map.1 ho
  exact hinputs d hd

theorem Entry.fineTags {name : String} {value : Option String} {entries : List Entry}
    (hname : A "name" name) (hvalue : ∀ v, value = some v → A "value" v)
    (hentries : ∀ o ∈ Entry.outlines entries, FineTags A o) :
    FineTags A (Entry.mk name value entries).outline := by
  refine fineTags_fold ⟨?_, ?_⟩ hentries
  · cases value <;> simp [optional]
  · exact List.forall_mem_cons.2 ⟨hname, of_optional hvalue⟩

/-- The tags of a table are fine if its name and its entries are. -/
theorem Table.fineTags {t : Table} (hname : A "name" t.name)
    (hentries : ∀ o ∈ Entry.outlines t.entries, FineTags A o) : FineTags A t.outline :=
  fineTags_fold ⟨by simp, by simpa using hname⟩ hentries

theorem fineTags_filterOutline {f : String × Filter} (hname : A "name" f.1)
    (htype : A "type" f.2.dialect.word) (hexpression : A "expression" f.2.expression) :
    FineTags A (filterOutline f) :=
  fineTags_leaf ⟨by simp, by simp [hname, htype, hexpression]⟩

/-! ## Scripts -/

/-- The tags around the parts of a script have no attributes. -/
theorem Held.fine {s : Script} (h : Held A T s) : ∀ t ∈ s.tags, Fine A t.2 := by
  intro t ht
  -- a tag without attributes holds nothing, any other is in a part
  rcases mem_tags ht with ⟨-, hnone⟩ | ⟨o, ho, ht⟩
  · rw [hnone]
    exact ⟨List.nodup_nil, by simp⟩
  · rcases mem_parts.1 ho with ho | ho | ho | ho
    · obtain ⟨v, hv, rfl⟩ := List.mem_map.1 ho
      exact h.vars v hv t ht
    · obtain ⟨r, hr, rfl⟩ := List.mem_map.1 ho
      exact h.rules r hr t ht
    · obtain ⟨m, hm, rfl⟩ := List.mem_map.1 ho
      obtain ⟨p, hp, rfl⟩ := List.mem_map.1 hm
      exact h.maps p hp t ht
    · obtain ⟨f, hf, rfl⟩ := List.mem_map.1 ho
      exact h.filters f hf t ht

/-! ## Attributes -/

/-- What is granted of a tree is granted of the attributes of its root. -/
theorem every_attributes {n : Markup.Node} (hn : n.Every A T) :
    ∀ a ∈ n.attributes, A a.name a.value := by
  cases n with
  | element name label as children => exact hn.1
  | text t => simp [Markup.Node.attributes]
  | mark => simp [Markup.Node.attributes]

theorem every_children {n : Markup.Node} (hn : n.Every A T) : ∀ c ∈ n.children, c.Every A T := by
  cases n with
  | element name label as children => exact everyIn_iff.1 hn.2
  | text t => simp [Markup.Node.children]
  | mark => simp [Markup.Node.children]

/-- What is granted of a tree is granted of the elements inside it. -/
theorem every_elements {n : Markup.Node} (hn : n.Every A T) : ∀ e ∈ n.elements, e.Every A T :=
  fun e he => every_children hn e (List.mem_filter.1 he).1

/-- An attribute that is found is as granted. -/
theorem of_attribute? {n : Markup.Node} (hn : n.Every A T) {k v : String}
    (h : n.attribute? k = some v) : A k v := by
  obtain ⟨a, ha, rfl⟩ := Option.map_eq_some_iff.1 h
  have hname : a.name = k := by
    have hfound := List.find?_some ha
    simp only [Bool.and_eq_true, decide_eq_true_eq] at hfound
    exact hfound.2
  exact hname ▸ every_attributes hn a (List.mem_of_find?_eq_some ha)

/-- An attribute that must be there is as granted. -/
theorem of_required {n : Markup.Node} (hn : n.Every A T) {k v : String} (h : required n k = .ok v) :
    A k v := by
  unfold required at h
  split at h
  · rename_i w hw
    obtain rfl := Except.ok.inj h
    exact of_attribute? hn hw
  · cases h

/-- The attributes of an element, all or some of them, are fine as a map. -/
theorem fine_ofList {n : Markup.Node} (hn : n.Every A T) {as : List Markup.Attribute}
    (has : ∀ a ∈ as, a ∈ n.attributes) :
    Fine A (OrderedMap.ofList (as.map fun a => (a.name, a.value))).toList := by
  refine ⟨(OrderedMap.ofList _).nodup_keys, fun p hp => ?_⟩
  obtain ⟨a, ha, rfl⟩ := List.mem_map.1 (OrderedMap.mem_of_mem_ofList hp)
  exact every_attributes hn a (has a ha)

/-! ## Rules -/

/-- A data rule that has been read is written with fine tags. -/
theorem fineTags_dataRule {n : Markup.Node} (hn : n.Every A T) {r : DataRule}
    (h : dataRule n = .ok r) : FineTags A r.outline := by
  obtain ⟨source, hsource, h⟩ := bind_eq_ok.1 h
  obtain rfl := Except.ok.inj h
  refine DataRule.fineTags (of_required hn hsource) (fun v hv => of_attribute? hn hv)
    (fun v hv => of_attribute? hn hv) ?_
  intro c hc
  obtain ⟨f, hf, rfl⟩ := List.mem_map.1 hc
  exact fine_ofList (every_elements hn f hf) fun a ha => ha

/-- A rule that has been read is written with fine tags. -/
theorem fineTags_rule {n : Markup.Node} (hn : n.Every A T) {r : Rule} (h : rule n = .ok r) :
    FineTags A r.outline := by
  simp only [rule] at h
  split at h
  · obtain ⟨d, hd, h⟩ := bind_eq_ok.1 h
    obtain rfl := Except.ok.inj h
    exact fineTags_dataRule hn hd
  · obtain ⟨inputs, hinputs, h⟩ := bind_eq_ok.1 h
    obtain ⟨name, hname, h⟩ := bind_eq_ok.1 h
    obtain rfl := Except.ok.inj h
    -- the name is taken out of the attributes, so it cannot stand there twice
    have hothers : ∀ a ∈ n.attributes.filter fun a => a.name ≠ "name", a ∈ n.attributes :=
      fun a ha => (List.mem_filter.1 ha).1
    have hnew : "name" ∉ (attributesBut "name" n).keys := by
      intro hmem
      obtain ⟨p, hp, hpname⟩ := List.mem_map.1 hmem
      obtain ⟨a, ha, rfl⟩ := List.mem_map.1 (OrderedMap.mem_of_mem_ofList hp)
      have hne := (List.mem_filter.1 ha).2
      simp only [decide_eq_true_eq] at hne
      exact hne hpname
    refine CollectRule.fineTags (of_required hn hname) (fine_ofList hn hothers) hnew fun d hd => ?_
    obtain ⟨e, he, hread⟩ := exists_of_mem_mapM hinputs hd
    unfold inputRule at hread
    split at hread
    · exact fineTags_dataRule (every_elements hn e he) hread
    · cases hread

/-! ## Tables, filters and variables -/

mutual
theorem fineTags_entry (n : Markup.Node) (hn : n.Every A T) {e : Entry} (h : entry n = .ok e) :
    FineTags A e.outline := by
  cases n with
  | text t => cases h
  | mark => cases h
  | element tag label as children =>
      simp only [entry] at h
      obtain ⟨name, hname, h⟩ := bind_eq_ok.1 h
      obtain ⟨entries, hentries, h⟩ := bind_eq_ok.1 h
      obtain rfl := Except.ok.inj h
      exact Entry.fineTags (of_required hn hname) (fun v hv => of_attribute? hn hv)
        (fineTags_entriesIn children hn.2 hentries)

/-- Entries that have been read are written with fine tags. -/
theorem fineTags_entriesIn (ns : List Markup.Node) (hns : EveryIn A T ns) {es : List Entry}
    (h : entriesIn ns = .ok es) : ∀ o ∈ Entry.outlines es, FineTags A o := by
  cases ns with
  | nil =>
      obtain rfl := Except.ok.inj h
      simp [Entry.outlines]
  | cons n rest =>
      cases n with
      | text t => exact fineTags_entriesIn rest hns.2 h
      | mark => exact fineTags_entriesIn rest hns.2 h
      | element tag label as children =>
          simp only [entriesIn] at h
          obtain ⟨e, he, h⟩ := bind_eq_ok.1 h
          -- the first entry is read, and then the rest
          obtain ⟨more, hmore, h⟩ := bind_eq_ok.1 h
          obtain rfl := Except.ok.inj h
          rw [Entry.outlines]
          exact List.forall_mem_cons.2
            ⟨fineTags_entry _ hns.1 he, fineTags_entriesIn rest hns.2 hmore⟩
end

/-- A table that has been read is written with fine tags. -/
theorem fineTags_table {n : Markup.Node} (hn : n.Every A T) {t : Table} (h : table n = .ok t) :
    FineTags A t.outline := by
  obtain ⟨name, hname, h⟩ := bind_eq_ok.1 h
  obtain ⟨entries, hentries, h⟩ := bind_eq_ok.1 h
  obtain rfl := Except.ok.inj h
  exact Table.fineTags (of_required hn hname)
    (fineTags_entriesIn n.children (everyIn_iff.2 (every_children hn)) hentries)

theorem fineTags_variable (hg : Granted A T) {n : Markup.Node} (hn : n.Every A T)
    {v : String × String} (h : variable_ n = .ok v) : FineTags A (variableOutline v) := by
  obtain ⟨name, hname, h⟩ := bind_eq_ok.1 h
  obtain rfl := Except.ok.inj h
  refine fineTags_leaf (fine_named (by decide) (of_required hn hname) ?_)
  cases hvalue : n.attribute? "value" with
  | none => exact hg.value
  | some v => exact of_attribute? hn hvalue

/-- A filter that has been read is written with fine tags. -/
theorem fineTags_filter (hg : Granted A T) {n : Markup.Node} (hn : n.Every A T)
    {f : String × Filter} (h : namedFilter n = .ok f) : FineTags A (filterOutline f) := by
  obtain ⟨name, hname, h⟩ := bind_eq_ok.1 h
  -- the dialect is one of the two, whatever has been written for it
  obtain ⟨dialect, h⟩ : ∃ dialect,
      (required n "expression" >>= fun e => .ok (name, ⟨e, dialect⟩)) = .ok f := by
    dsimp only at h
    split at h
    · exact ⟨_, h⟩
    · split at h
      · exact ⟨_, h⟩
      · cases h
  obtain ⟨expression, hexpression, h⟩ := bind_eq_ok.1 h
  obtain rfl := Except.ok.inj h
  exact fineTags_filterOutline (of_required hn hname) (hg.dialect dialect)
    (of_required hn hexpression)

/-! ## Sections -/

theorem held_empty (hg : Granted A T) : Held A T empty where
  name := hg.text
  vars := by simp [empty, OrderedMap.empty]
  rules := by simp [empty]
  maps := by simp [empty, OrderedMap.empty]
  filters := by simp [empty, OrderedMap.empty]

/-- The text of an element is as granted. -/
theorem text_leadingText (hg : Granted A T) {n : Markup.Node} (hn : n.Every A T) :
    T n.leadingText := by
  have hchildren := every_children hn
  unfold Markup.Node.leadingText
  split
  · rename_i t rest heq
    rw [heq] at hchildren
    exact hchildren (.text t) List.mem_cons_self
  · exact hg.text

/-- A section adds what it holds. -/
theorem Held.addSection (hg : Granted A T) {s s' : Script} (hs : Held A T s) {n : Markup.Node}
    (hn : n.Every A T) (h : addSection s n = .ok s') : Held A T s' := by
  have helements := every_elements hn
  unfold Script.addSection at h
  split at h
  · split at h
    · rename_i e he
      obtain rfl := Except.ok.inj h
      have htext := text_leadingText hg (helements e (List.mem_of_find?_eq_some he))
      exact ⟨hg.trim _ htext, hs.vars, hs.rules, hs.maps, hs.filters⟩
    · obtain rfl := Except.ok.inj h
      exact hs
  · obtain ⟨vs, hvs, h⟩ := bind_eq_ok.1 h
    obtain rfl := Except.ok.inj h
    refine ⟨hs.name, fun v hv => ?_, hs.rules, hs.maps, hs.filters⟩
    -- a variable is an old one or has just been read
    rcases OrderedMap.mem_of_mem_foldl_put hv with hv | hv
    · exact hs.vars v hv
    · obtain ⟨e, he, hread⟩ := exists_of_mem_mapM hvs hv
      exact fineTags_variable hg (helements e he) hread
  · obtain ⟨rs, hrs, h⟩ := bind_eq_ok.1 h
    obtain rfl := Except.ok.inj h
    refine ⟨hs.name, hs.vars, fun r hr => ?_, hs.maps, hs.filters⟩
    rcases List.mem_append.1 hr with hr | hr
    · exact hs.rules r hr
    · obtain ⟨e, he, hread⟩ := exists_of_mem_mapM hrs hr
      exact fineTags_rule (helements e he) hread
  · obtain ⟨ts, hts, h⟩ := bind_eq_ok.1 h
    obtain rfl := Except.ok.inj h
    refine ⟨hs.name, hs.vars, hs.rules, fun p hp => ?_, hs.filters⟩
    -- tables are written under their names, so this is writing pairs
    have hpairs : ts.foldl (fun m t => m.put t.name t) s.maps =
        (ts.map fun t => (t.name, t)).foldl (fun m p => m.put p.1 p.2) s.maps := by
      rw [List.foldl_map]
    rw [hpairs] at hp
    rcases OrderedMap.mem_of_mem_foldl_put hp with hp | hp
    · exact hs.maps p hp
    · obtain ⟨t, ht, rfl⟩ := List.mem_map.1 hp
      obtain ⟨e, he, hread⟩ := exists_of_mem_mapM hts ht
      exact fineTags_table (helements e he) hread
  · obtain ⟨fs, hfs, h⟩ := bind_eq_ok.1 h
    obtain rfl := Except.ok.inj h
    refine ⟨hs.name, hs.vars, hs.rules, hs.maps, fun f hf => ?_⟩
    rcases OrderedMap.mem_of_mem_foldl_put hf with hf | hf
    · exact hs.filters f hf
    · obtain ⟨e, he, hread⟩ := exists_of_mem_mapM hfs hf
      exact fineTags_filter hg (helements e he) hread
  · cases h

/-- What is true of all attributes and texts of a tree is true of the script read from it. -/
theorem held_of_ofNode (hg : Granted A T) {root : Markup.Node} (hroot : root.Every A T) {s : Script}
    (h : ofNode root = .ok s) : Held A T s := by
  unfold ofNode at h
  split at h
  · exact foldlM_ok_invariant (p := Held A T)
      (fun n hn _ _ hs hstep => hs.addSection hg (every_elements hroot n hn) hstep)
      (held_empty hg) h
  · cases h

end Script
end Recast
