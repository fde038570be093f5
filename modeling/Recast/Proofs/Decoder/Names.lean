import Mathlib.Data.List.Nodup
import Recast.Proofs.Decoder.Whole
import Recast.Proofs.Markup.Skeleton

/-!
# Names — the names of elements in harvests

The literals of a record are named by the labels of the elements in its sections.  A label is the
name of the element as it is written, unless another qualifier comes first in the scope of the
element and stands for the same namespace.

Main statement: `OaiOptions.decode_names`.
-/

namespace Recast

def Event.literalName? : Event → Option String
  | .literal name _ => some name
  | _ => none

namespace Markup

/-! ## Labels and written names -/

def WrittenName.text (n : WrittenName) : String :=
  if n.qualifier = "" then n.base else n.qualifier ++ ":" ++ n.base

def WrittenName.qualifier? (n : WrittenName) : Option String :=
  if n.qualifier = "" then none else some n.qualifier

/-- The name of an element has the first qualifier in its scope that stands for its namespace. -/
def Placed.Own (p : Placed) : Prop :=
  p.space?.join.bind p.scope.qualifier? = p.name.qualifier?

/-- A local name is not the same with a qualifier. -/
theorem base_ne_qualified (base q : String) : base ≠ q ++ ":" ++ base := by
  intro h
  have hlength := congrArg String.length h
  simp only [String.length_append] at hlength
  have hcolon : ":".length = 1 := rfl
  omega

/-- An element keeps its name if the first qualifier of its namespace is its own. -/
theorem Placed.label_eq_text_iff (p : Placed) : p.label = p.name.text ↔ p.Own := by
  unfold Placed.label labelIn WrittenName.text Placed.Own WrittenName.qualifier?
  generalize p.space?.join.bind p.scope.qualifier? = first
  by_cases hbare : p.name.qualifier = ""
  · cases first with
    | none => simp [hbare]
    | some q => simp [hbare]
  · cases first with
    | none => simp [hbare, base_ne_qualified]
    | some q => simp [hbare, String.append_left_inj]

/-- If every namespace in a scope has one qualifier only, it is found by its namespace. -/
theorem Scope.qualifier?_of_lookup {s : Scope} (hs : (s.map Prod.snd).Nodup) {q : Option String}
    {space : String} (h : s.lookup q = some space) : s.qualifier? space = q := by
  obtain ⟨before, behind, hsplit, -⟩ := List.lookup_eq_some_iff.1 h
  have hmem : (q, space) ∈ s := by
    rw [hsplit]
    exact List.mem_append_right _ List.mem_cons_self
  cases hfind : s.find? fun b => b.2 = space with
  | none => simpa using List.find?_eq_none.1 hfind _ hmem
  | some b =>
      have hb : b = (q, space) := by
        refine List.inj_on_of_nodup_map hs (List.mem_of_find?_eq_some hfind) hmem ?_
        simpa using List.find?_some hfind
      rw [Scope.qualifier?, hfind, hb]
      rfl

/-- Where every namespace has one qualifier, it is that of the element. -/
theorem Placed.own_of_nodup {p : Placed} (hresolved : p.space?.isSome)
    (hscope : (p.scope.map Prod.snd).Nodup) : p.Own := by
  obtain ⟨space, hspace⟩ := Option.isSome_iff_exists.1 hresolved
  -- the namespace is what the qualifier, or the lack of one, stands for
  have hlookup : p.scope.lookup p.name.qualifier? = space ∧
      (space = none → p.name.qualifier? = none) := by
    unfold Placed.space? Scope.ofElement? at hspace
    unfold WrittenName.qualifier?
    split at hspace
    · rename_i hbare
      obtain rfl := Option.some.inj hspace
      simp [hbare, Scope.default?]
    · rename_i hbare
      obtain ⟨u, hu, rfl⟩ := Option.map_eq_some_iff.1 hspace
      simp [hbare, hu]
  obtain ⟨hlookup, hnone⟩ := hlookup
  rw [Placed.Own, hspace]
  cases space with
  | none => exact (hnone rfl).symm
  | some u => exact Scope.qualifier?_of_lookup hscope hlookup

/-! ## Elements by their labels -/

namespace Skeleton

mutual
/-- An element and all elements inside it, in the order in which they start. -/
def all (outer : Scope) : Skeleton → List Placed
  | .element name as es => ⟨outer, .element name as es⟩ :: allIn (outer.inside as) es

def allIn (outer : Scope) : List Skeleton → List Placed
  | [] => []
  | e :: rest => all outer e ++ allIn outer rest
end

end Skeleton

theorem labelledIn_elements (l : String) (ns : List Node) :
    Node.labelledIn l (ns.filter Node.isElement) = Node.labelledIn l ns := by
  induction ns with
  | nil => rfl
  | cons n rest ih =>
      cases n with
      | element base k kept children =>
          rw [List.filter_cons_of_pos (by rfl), Node.labelledIn, Node.labelledIn, ih]
      | text s => exact ih
      | mark => exact ih

-- along the elements of the skeleton, each of which has its node
mutual
/-- The elements with a label are read as the nodes with this label. -/
theorem reads_labelled (l : String) (outer : Scope) (e : Skeleton) {n : Node}
    (h : e.Reads outer n) :
    List.Forall₂ Placed.Reads ((e.all outer).filter fun p => p.label = l) (n.labelled l) := by
  cases e with
  | element name as es =>
      have hself : (Placed.mk outer (.element name as es)).Reads n := h
      obtain ⟨helement, -, hlabel, helements⟩ := h
      cases n with
      | text s => cases helement
      | mark => cases helement
      | element base k kept children =>
          -- the children are matched first, the element itself is in front of them
          have hinside := readsAll_labelledIn l (outer.inside as) es helements
          rw [Node.elements, labelledIn_elements] at hinside
          rw [Skeleton.all, List.filter_cons, ← hlabel, Node.labelled]
          by_cases hl : k = l
          · simp only [Node.label, hl, decide_true, if_true]
            exact .cons (hl ▸ hself) hinside
          · simp only [Node.label, hl, decide_false, if_false]
            exact hinside

theorem readsAll_labelledIn (l : String) (outer : Scope) (es : List Skeleton) {ns : List Node}
    (h : Skeleton.ReadsAll outer es ns) :
    List.Forall₂ Placed.Reads ((Skeleton.allIn outer es).filter fun p => p.label = l)
      (Node.labelledIn l ns) := by
  cases es with
  | nil =>
      obtain rfl : ns = [] := h
      exact .nil
  | cons e rest =>
      obtain ⟨n, more, hn, hmore, rfl⟩ := h
      rw [Skeleton.allIn, List.filter_append, Node.labelledIn]
      exact List.rel_append (reads_labelled l outer e hn) (readsAll_labelledIn l outer rest hmore)
end

def Placed.section? (record : Placed) (path : String) : Option Placed :=
  (Text.parts '.' path).foldlM (fun p l => p.elements.find? fun e => e.label = l) record

/-- Going down along labels leads to corresponding places. -/
theorem foldlM_reads (labels : List String) {p : Placed} {n : Node} (h : p.Reads n) :
    Option.Rel Placed.Reads (labels.foldlM (fun p l => p.elements.find? fun e => e.label = l) p)
      (labels.foldlM (fun n l => n.elements.find? fun e => e.label = l) n) := by
  induction labels generalizing p n with
  | nil => exact .some h
  | cons l rest ih =>
      rw [List.foldlM_cons, List.foldlM_cons]
      have hfind := find?_forall₂ (Placed.reads_iff.1 h).2.2.2
        (p := fun e => e.label = l) (q := fun e => e.label = l)
        fun _ _ he => by rw [(Placed.reads_iff.1 he).2.2.1]
      generalize p.elements.find? (fun e => e.label = l) = found,
        n.elements.find? (fun e => e.label = l) = found' at hfind
      cases hfind with
      | none => exact .none
      | some hnext => exact ih hnext

end Markup

/-! ## Records -/

namespace OaiOptions

open Markup

def recordsOf (o : OaiOptions) (e : Skeleton) : List Placed :=
  (e.all []).filter fun p => p.label = o.recordTag

def complete (o : OaiOptions) (record : Placed) : Bool :=
  !o.requireSections || o.sections.all fun path => (record.section? path).isSome

/-- The elements in the sections of a record. -/
def held (o : OaiOptions) (record : Placed) : List Placed :=
  (o.sections.filterMap record.section?).flatMap Placed.elements

/-- Entities around literals do not change their names. -/
theorem names_within (names : List String) (es : List Event) :
    (within names es).filterMap Event.literalName? = es.filterMap Event.literalName? := by
  simp [within, List.filterMap_append, List.filterMap_map, Function.comp_def, Event.literalName?]

/-- The literals of a section have the labels of its elements. -/
theorem names_section (path : String) (n : Markup.Node) :
    (sectionEvents path n).filterMap Event.literalName? = n.elements.map Markup.Node.label := by
  simp [sectionEvents, names_within, List.filterMap_map, Function.comp_def, Event.literalName?]

def sectionOf (o : OaiOptions) (number : Nat) (n : Markup.Node) (path : String) :
    Except DecodeError (List (String × Markup.Node)) :=
  match findSection? n path with
  | some s => .ok [(path, s)]
  | none => if o.requireSections then .error (.missingSection number path) else .ok []

section Records

variable {o : OaiOptions} (number : Nat) {p : Placed} {n : Markup.Node}

/-- A section that is there holds the elements of the skeleton. -/
theorem sectionOf_reads (h : p.Reads n) {path : String}
    (hfound : o.requireSections = true → (p.section? path).isSome) :
    ∃ found, o.sectionOf number n path = .ok found ∧
      found.flatMap (fun s => s.2.elements.map Markup.Node.label) =
        ((p.section? path).toList.flatMap Placed.elements).map Placed.label := by
  -- the way to the section is found on both sides or on neither
  have hsection : Option.Rel Placed.Reads (p.section? path) (findSection? n path) :=
    foldlM_reads _ h
  unfold sectionOf
  generalize p.section? path = there, findSection? n path = there' at hsection hfound
  cases hsection with
  | none =>
      have hoptional : ¬ o.requireSections = true := fun hrequired => by cases hfound hrequired
      exact ⟨[], by simp [hoptional], rfl⟩
  | @some q m hm =>
      refine ⟨[(path, m)], rfl, ?_⟩
      obtain ⟨-, -, -, helements⟩ := Placed.reads_iff.1 hm
      have hlabels : q.elements.map Placed.label = m.elements.map Markup.Node.label := by
        refine map_eq_of_forall₂ helements ?_
        intro e n he
        obtain ⟨-, -, hlabel, -⟩ := Placed.reads_iff.1 he
        exact hlabel.symm
      simpa using hlabels.symm

/-- A section that must be there and is not makes a fault. -/
theorem sectionOf_missing (h : p.Reads n) {path : String} (hrequired : o.requireSections = true)
    (hmissing : p.section? path = none) :
    o.sectionOf number n path = .error (.missingSection number path) := by
  have hsection : Option.Rel Placed.Reads (p.section? path) (findSection? n path) :=
    foldlM_reads _ h
  rw [hmissing] at hsection
  unfold sectionOf
  generalize findSection? n path = there' at hsection
  cases hsection
  simp [hrequired]

/-- The sections that are found have the elements that they should. -/
theorem mapM_sectionOf (h : p.Reads n) {paths : List String}
    (hfound : ∀ path ∈ paths, o.requireSections = true → (p.section? path).isSome) :
    ∃ found, paths.mapM (o.sectionOf number n) = .ok found ∧
      found.flatten.flatMap (fun s => s.2.elements.map Markup.Node.label) =
        ((paths.filterMap p.section?).flatMap Placed.elements).map Placed.label := by
  induction paths with
  | nil => exact ⟨[], rfl, rfl⟩
  | cons path rest ih =>
      obtain ⟨hfirst, hrest⟩ := List.forall_mem_cons.1 hfound
      obtain ⟨first, hfirst, hlabels⟩ := sectionOf_reads number h hfirst
      obtain ⟨more, hmore, hlabels'⟩ := ih hrest
      refine ⟨first :: more, ?_, ?_⟩
      · rw [List.mapM_cons, hfirst, ok_bind, hmore]
        rfl
      · rw [List.flatten_cons, List.flatMap_append, hlabels, hlabels', List.filterMap_cons]
        cases p.section? path <;> simp

/-- The names in a record are the labels of the elements in its sections. -/
theorem record_reads (h : p.Reads n) (hcomplete : o.complete p = true) :
    ∃ q : WholeRecord, o.record number n = .ok q.events ∧
      q.events.filterMap Event.literalName? = (o.held p).map Placed.label := by
  have hfound : ∀ path ∈ o.sections, o.requireSections = true → (p.section? path).isSome := by
    intro path hpath hrequired
    simp only [complete, hrequired, Bool.not_true, Bool.false_or, List.all_eq_true] at hcomplete
    exact hcomplete path hpath
  obtain ⟨found, hmap, hlabels⟩ := mapM_sectionOf number h hfound
  -- the events of a record are those of its sections between its start and its end
  have hrecord : o.record number n = .ok (.startRecord (recordId number n) ::
      within o.recordEntity.toList (found.flatten.flatMap fun s => sectionEvents s.1 s.2) ++
        [.endRecord]) := by
    have hsections : o.sectionsOf number n = .ok found.flatten := bind_eq_ok.2 ⟨found, hmap, rfl⟩
    exact bind_eq_ok.2 ⟨_, hsections, rfl⟩
  obtain ⟨q, hq⟩ := o.whole_record number n _ hrecord
  refine ⟨q, hq ▸ hrecord, ?_⟩
  calc q.events.filterMap Event.literalName?
      = (found.flatten.flatMap fun s => sectionEvents s.1 s.2).filterMap Event.literalName? := by
        rw [← hq, List.cons_append, List.filterMap_cons_none rfl, List.filterMap_append,
          names_within]
        exact List.append_nil _
    _ = found.flatten.flatMap fun s => s.2.elements.map Markup.Node.label := by
        rw [List.filterMap_flatMap]
        simp only [names_section]
    _ = (o.held p).map Placed.label := hlabels

/-- A record without all of its sections is not read. -/
theorem record_incomplete (h : p.Reads n) (hcomplete : o.complete p = false) :
    ∃ e, o.record number n = .error e := by
  obtain ⟨hrequired, path, hpath, hmissing⟩ : o.requireSections = true ∧ ∃ path ∈ o.sections,
      p.section? path = none := by
    simpa [complete] using hcomplete
  obtain ⟨e, he⟩ := exists_mapM_error hpath (sectionOf_missing number h hrequired hmissing)
  have hsections : o.sectionsOf number n = .error e := bind_eq_error.2 (.inl he)
  exact ⟨e, bind_eq_error.2 (.inl hsections)⟩

end Records

/-- The records in front of the first one that is not complete are handed on. -/
theorem ofRecordsFrom_reads {o : OaiOptions} {ps : List Placed} {ns : List Markup.Node}
    (h : List.Forall₂ Placed.Reads ps ns) (count : Nat) :
    ∃ qs : List WholeRecord,
      (Decoded.ofRecordsFrom o.record count ns).events = qs.flatMap WholeRecord.events ∧
        qs.map (fun q => q.events.filterMap Event.literalName?) =
          (ps.takeWhile o.complete).map fun p => (o.held p).map Placed.label := by
  induction h generalizing count with
  | nil => exact ⟨[], rfl, rfl⟩
  | @cons p n _ _ hn _ ih =>
      rw [Decoded.ofRecordsFrom, List.takeWhile_cons]
      -- the record is read where its sections are there, and otherwise reading stops
      cases hcomplete : o.complete p with
      | true =>
          obtain ⟨q, hq, hnames⟩ := record_reads (count + 1) hn hcomplete
          obtain ⟨qs, hevents, hrest⟩ := ih (count + 1)
          refine ⟨q :: qs, ?_, ?_⟩
          · simp only [hq, hevents, List.flatMap_cons]
          · simp only [if_true, List.map_cons, hnames, hrest]
      | false =>
          obtain ⟨e, he⟩ := record_incomplete (count + 1) hn hcomplete
          exact ⟨[], by simp only [he]; rfl, rfl⟩

/-- The namespace of an element in a section of a record can be told. -/
theorem resolved_of_held {o : OaiOptions} {r : Placed} {n : Markup.Node} (h : r.Reads n)
    {c : Placed} (hc : c ∈ o.held r) : c.space?.isSome := by
  obtain ⟨s, hs, hc⟩ := List.mem_flatMap.1 hc
  obtain ⟨path, -, hpath⟩ := List.mem_filterMap.1 hs
  have hsection : Option.Rel Placed.Reads (r.section? path) (findSection? n path) :=
    foldlM_reads _ h
  rw [hpath] at hsection
  generalize findSection? n path = there' at hsection
  cases hsection with
  | some hm =>
      obtain ⟨_, -, hread⟩ := exists_of_mem_left (Placed.reads_iff.1 hm).2.2.2 hc
      exact (Placed.reads_iff.1 hread).2.1

/-- The records that are handed on: those in front of the first one that is not complete. -/
def handedOn (o : OaiOptions) (e : Skeleton) : List Placed :=
  (o.recordsOf e).takeWhile o.complete

/-- A document that is read has one skeleton.  In each record that is handed on the literals are
named, in document order, by the labels of the elements in its sections.  These are their names as
they are written if and only if each of these names has the first qualifier in scope that stands for
its namespace; so it is where no two qualifiers stand for the same one. -/
theorem decode_names (o : OaiOptions) {input : String} {root : Markup.Node}
    (h : Markup.Node.ofText? input = some root) :
    ∃ e : Skeleton, e.Of input ∧ (∀ f : Skeleton, f.Of input → f = e) ∧
      ∃ qs : List WholeRecord, (o.decode input).events = qs.flatMap WholeRecord.events ∧
        qs.map (fun q => q.events.filterMap Event.literalName?) =
          (o.handedOn e).map (fun r => (o.held r).map Placed.label) ∧
        (qs.map (fun q => q.events.filterMap Event.literalName?) =
            (o.handedOn e).map (fun r => (o.held r).map fun c => c.name.text) ↔
          ∀ r ∈ o.handedOn e, ∀ c ∈ o.held r, c.Own) ∧
        ∀ r ∈ o.handedOn e, ∀ c ∈ o.held r, (c.scope.map Prod.snd).Nodup → c.Own := by
  obtain ⟨e, hof, hreads⟩ := Skeleton.exists_of_ofText? h
  -- the elements with the tag of a record are the same in the document and in the tree
  have hrecords : List.Forall₂ Placed.Reads (o.recordsOf e) (root.labelled o.recordTag) :=
    reads_labelled o.recordTag [] e hreads
  have hdecode : o.decode input = .ofRecords o.record (root.labelled o.recordTag) := by
    rw [decode, h]
  obtain ⟨qs, hevents, hnames⟩ := ofRecordsFrom_reads hrecords 0
  refine ⟨e, hof, fun f hf => hf.unique hof, qs, ?_, hnames, ?_, ?_⟩
  · rw [hdecode]
    exact hevents
  · rw [hnames]
    simp only [handedOn, List.map_inj_left, Placed.label_eq_text_iff]
  · intro r hr c hc
    obtain ⟨n, -, hn⟩ := exists_of_mem_left hrecords ((List.takeWhile_sublist _).subset hr)
    exact Placed.own_of_nodup (resolved_of_held hn hc)

/-- Harvests of which the headers count. -/
def headers : OaiOptions :=
  ⟨"record", none, ["header"], true⟩

def plainHarvest : String :=
  "<r xmlns='v' xmlns:a='u'><record><header><a:x>1</a:x><y>2</y></header></record></r>"

def plainSkeleton : Skeleton :=
  .element ⟨"", "r"⟩ [(⟨"", "xmlns"⟩, "v"), (⟨"xmlns", "a"⟩, "u")]
    [.element ⟨"", "record"⟩ []
      [.element ⟨"", "header"⟩ [] [.element ⟨"a", "x"⟩ [] [], .element ⟨"", "y"⟩ [] []]]]

/-- In this harvest the literals have the names of their elements. -/
theorem decode_names_plain :
    plainSkeleton.Of plainHarvest ∧ (Markup.Node.ofText? plainHarvest).isSome ∧
      ∃ qs : List WholeRecord,
        (headers.decode plainHarvest).events = qs.flatMap WholeRecord.events ∧
        qs.map (fun q => q.events.filterMap Event.literalName?) = [["a:x", "y"]] := by
  have hof : plainSkeleton.Of plainHarvest := by
    unfold Skeleton.Of
    decide +kernel
  have hread : (Markup.Node.ofText? plainHarvest).isSome := by decide +kernel
  obtain ⟨root, hroot⟩ := Option.isSome_iff_exists.1 hread
  obtain ⟨e, -, hunique, qs, hevents, hnames, -⟩ := decode_names headers hroot
  have hlabels : (headers.handedOn plainSkeleton).map
      (fun r => (headers.held r).map Placed.label) = [["a:x", "y"]] := by
    decide +kernel
  rw [← hunique _ hof, hlabels] at hnames
  exact ⟨hof, hread, qs, hevents, hnames⟩

/-- A harvest in which two qualifiers stand for one namespace. -/
def aliasedHarvest : String :=
  "<r xmlns:a='u' xmlns:b='u'><record><header><b:x>v</b:x></header></record></r>"

def aliasedSkeleton : Skeleton :=
  .element ⟨"", "r"⟩ [(⟨"xmlns", "a"⟩, "u"), (⟨"xmlns", "b"⟩, "u")]
    [.element ⟨"", "record"⟩ [] [.element ⟨"", "header"⟩ [] [.element ⟨"b", "x"⟩ [] []]]]

/-- The only element in the header has one name in the document, and its literal has another. -/
theorem aliased_misnamed :
    aliasedSkeleton.Of aliasedHarvest ∧
      (headers.handedOn aliasedSkeleton).map (fun r => (headers.held r).map fun c => c.name.text) =
        [["b:x"]] ∧
      (headers.decode aliasedHarvest).events.filterMap Event.literalName? = ["a:x"] := by
  refine ⟨?_, ?_, ?_⟩
  · unfold Skeleton.Of
    decide +kernel
  · decide +kernel
  · decide +kernel

end OaiOptions
end Recast
