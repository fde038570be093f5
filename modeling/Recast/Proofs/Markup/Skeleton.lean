import Recast.Markup.Node
import Recast.Proofs.Result

/-!
# Skeleton — the elements of a document as they are written

The *skeleton* of a document is the tree of its elements with their names and attributes as they are
written.  It is what the tags of the document say, and no other tree says the same tags:
`Skeleton.tags_inj`.

An element of a skeleton is *placed* in the namespaces around it, from which its label follows.

Main statement: `Skeleton.exists_of_ofText?`.  Every document that is read has a skeleton, and the
elements of the tree that is read have the labels of the elements of the skeleton.
-/

namespace Recast
namespace Markup

/-! ## Tags -/

inductive Tag where
  | opening (name : WrittenName) (attributes : List (WrittenName × String))
  | closing (name : WrittenName)
  deriving DecidableEq, Repr

/-- The tags that a token stands for: an element may start and end with the same token. -/
def Token.tags : Token → List Tag
  | .start name as closed => .opening name as :: if closed then [.closing name] else []
  | .stop name => [.closing name]
  | _ => []

def tagsOf? (input : String) : Option (List Tag) :=
  (tokens? input.toList).map fun ts => ts.flatMap Token.tags

/-- An element as it is written, with the elements right inside it. -/
inductive Skeleton where
  | element (name : WrittenName) (attributes : List (WrittenName × String))
      (children : List Skeleton)

namespace Skeleton

mutual
def tags : Skeleton → List Tag
  | .element name as es => .opening name as :: (tagsAll es ++ [.closing name])

def tagsAll : List Skeleton → List Tag
  | [] => []
  | e :: rest => tags e ++ tagsAll rest
end

theorem tagsAll_append (es fs : List Skeleton) : tagsAll (es ++ fs) = tagsAll es ++ tagsAll fs := by
  induction es with
  | nil => rfl
  | cons e rest ih =>
      calc tagsAll (e :: rest ++ fs)
          = tags e ++ (tagsAll rest ++ tagsAll fs) := by rw [List.cons_append, tagsAll, ih]
        _ = tagsAll (e :: rest) ++ tagsAll fs := by rw [tagsAll, List.append_assoc]

-- an element is closed behind as many elements as there are inside it
mutual
/-- Two elements with the same tags in front are the same element. -/
theorem tags_append_inj (e f : Skeleton) {r s : List Tag} (h : e.tags ++ r = f.tags ++ s) :
    e = f ∧ r = s := by
  cases e with
  | element name as es =>
      obtain ⟨name', as', fs⟩ := f
      simp only [tags, List.cons_append, List.append_assoc, List.nil_append, List.cons.injEq,
        Tag.opening.injEq] at h
      obtain ⟨⟨rfl, rfl⟩, hinside⟩ := h
      obtain ⟨rfl, hbehind⟩ := tagsAll_append_inj es fs hinside
      exact ⟨rfl, (List.cons.inj hbehind).2⟩

/-- Elements whose tags are followed by an end tag can be told from their tags. -/
theorem tagsAll_append_inj (es fs : List Skeleton) {name name' : WrittenName} {r s : List Tag}
    (h : tagsAll es ++ .closing name :: r = tagsAll fs ++ .closing name' :: s) :
    es = fs ∧ Tag.closing name :: r = .closing name' :: s := by
  -- an opening tag differs from the closing one, so both lists end at the same place
  cases es with
  | nil =>
      cases fs with
      | nil => exact ⟨rfl, h⟩
      | cons f rest =>
          obtain ⟨_, _, _⟩ := f
          simp [tagsAll, tags] at h
  | cons e more =>
      cases fs with
      | nil =>
          obtain ⟨_, _, _⟩ := e
          simp [tagsAll, tags] at h
      | cons f rest =>
          simp only [tagsAll, List.append_assoc] at h
          obtain ⟨rfl, hmore⟩ := tags_append_inj e f h
          obtain ⟨rfl, hbehind⟩ := tagsAll_append_inj more rest hmore
          exact ⟨rfl, hbehind⟩
end

/-- An element can be told from its tags. -/
theorem tags_inj {e f : Skeleton} (h : e.tags = f.tags) : e = f :=
  (tags_append_inj e f (r := []) (s := []) (by rw [h])).1

/-- The skeleton of a document. -/
def Of (input : String) (e : Skeleton) : Prop :=
  tagsOf? input = some e.tags

/-- A document has one skeleton at most. -/
theorem Of.unique {input : String} {e f : Skeleton} (he : e.Of input) (hf : f.Of input) : e = f :=
  tags_inj (Option.some.inj (he.symm.trans hf))

end Skeleton

/-! ## Elements in scopes -/

/-- The namespaces inside an element, where none is declared if its declarations cannot be read. -/
def Scope.inside (outer : Scope) (as : List (WrittenName × String)) : Scope :=
  within ((declared? as).getD []) outer

/-- An element with the namespaces around it. -/
structure Placed where
  outer : Scope
  element : Skeleton

namespace Placed

def name (p : Placed) : WrittenName :=
  match p.element with
  | .element name _ _ => name

/-- The namespaces inside an element, which are those of its own name as well. -/
def scope (p : Placed) : Scope :=
  match p.element with
  | .element _ as _ => p.outer.inside as

def elements (p : Placed) : List Placed :=
  match p.element with
  | .element _ _ es => es.map (⟨p.scope, ·⟩)

/-- The namespace of an element, if it has one; its qualifier must stand for one. -/
def space? (p : Placed) : Option (Option String) :=
  p.scope.ofElement? p.name

def label (p : Placed) : String :=
  labelIn p.scope p.space?.join p.name.base

end Placed

namespace Skeleton

mutual
/-- A node is what an element inside a scope is read as: it has its label, and the elements right
inside it are what those of the element are read as. -/
def Reads (outer : Scope) : Skeleton → Node → Prop
  | .element name as es, n =>
      n.isElement = true ∧ (Placed.mk outer (.element name as es)).space?.isSome ∧
        n.label = (Placed.mk outer (.element name as es)).label ∧
        ReadsAll (outer.inside as) es n.elements

def ReadsAll (outer : Scope) : List Skeleton → List Node → Prop
  | [], ns => ns = []
  | e :: rest, ns => ∃ n more, Reads outer e n ∧ ReadsAll outer rest more ∧ ns = n :: more
end

theorem readsAll_iff {outer : Scope} {es : List Skeleton} {ns : List Node} :
    ReadsAll outer es ns ↔ List.Forall₂ (Reads outer) es ns := by
  induction es generalizing ns with
  | nil => simp only [ReadsAll, List.forall₂_nil_left_iff]
  | cons e rest ih => simp only [ReadsAll, ih, List.forall₂_cons_left_iff]

end Skeleton

namespace Placed

/-- A node is what a placed element is read as. -/
def Reads (p : Placed) (n : Node) : Prop :=
  p.element.Reads p.outer n

/-- An element is read as a node with its label, and its elements are read as those of the node. -/
theorem reads_iff {p : Placed} {n : Node} :
    p.Reads n ↔ n.isElement = true ∧ p.space?.isSome ∧ n.label = p.label ∧
      List.Forall₂ Reads p.elements n.elements := by
  obtain ⟨outer, name, as, es⟩ := p
  simp only [Reads, Skeleton.Reads, Skeleton.readsAll_iff, elements, List.forall₂_map_left_iff]
  rfl

end Placed

/-! ## Reading -/

/-- An open element in a scope, with the elements in it that have ended. -/
structure Frame.Holds (outer : Scope) (name : WrittenName) (as : List (WrittenName × String))
    (es : List Skeleton) (f : Frame) : Prop where
  written : f.written = name
  scope : f.scope = outer.inside as
  resolved : (f.scope.ofElement? name).isSome
  label : f.label = labelIn f.scope (f.scope.ofElement? name).join name.base
  children : List.Forall₂ (Skeleton.Reads f.scope) es (f.children.reverse.filter Node.isElement)

namespace Frame

variable {outer : Scope} {name : WrittenName} {as : List (WrittenName × String)} {f : Frame}
  {es : List Skeleton}

/-- An element that has just been opened holds nothing. -/
theorem holds_open? (h : Frame.open? outer name as = some f) : f.Holds outer name as [] := by
  simp only [Frame.open?, Option.bind_eq_bind] at h
  split at h
  · cases h
  · simp only [Option.bind_eq_some_iff] at h
    obtain ⟨own, hown, kept, -, space, hspace, h⟩ := h
    obtain rfl := Option.some.inj h
    refine ⟨rfl, ?_, ?_, ?_, .nil⟩
    · simp only [Scope.inside, hown, Option.getD_some]
    · simp only [hspace, Option.isSome_some]
    · simp only [hspace, Option.join_some]

/-- An open element becomes the node that it is read as. -/
theorem Holds.node (h : f.Holds outer name as es) :
    (Placed.mk outer (.element name as es)).Reads f.node := by
  have hscope : (Placed.mk outer (.element name as es)).scope = f.scope := h.scope.symm
  refine Placed.reads_iff.2 ⟨rfl, ?_, ?_, ?_⟩
  · rw [Placed.space?, hscope]
    exact h.resolved
  · rw [Placed.label, Placed.space?, hscope]
    exact h.label
  · rw [Placed.elements, hscope]
    exact List.forall₂_map_left_iff.2 h.children

/-- An element that ends stands behind those that have ended before. -/
theorem Holds.add (h : f.Holds outer name as es) {e : Skeleton} {n : Node}
    (hn : e.Reads f.scope n) : (f.add n).Holds outer name as (es ++ [e]) := by
  have helement : n.isElement = true := (Placed.reads_iff (p := ⟨f.scope, e⟩).1 hn).1
  have hchildren : (f.add n).children.reverse.filter Node.isElement =
      f.children.reverse.filter Node.isElement ++ [n] := by
    simp [Frame.add, helement]
  refine ⟨h.written, h.scope, h.resolved, h.label, ?_⟩
  rw [hchildren]
  exact List.rel_append h.children (.cons hn .nil)

/-- Texts and marks count for nothing. -/
theorem Holds.congr (h : f.Holds outer name as es) {ns : List Node}
    (hns : ns.filter Node.isElement = f.children.filter Node.isElement) :
    Frame.Holds outer name as es { f with children := ns } := by
  refine ⟨h.written, h.scope, h.resolved, h.label, ?_⟩
  rw [List.filter_reverse, hns, ← List.filter_reverse]
  exact h.children

/-- A text changes nothing about the elements that an open element holds. -/
theorem Holds.addText (h : f.Holds outer name as es) (s : String) :
    (f.addText s).Holds outer name as es := by
  unfold Frame.addText
  split
  · rename_i t earlier hchildren
    exact h.congr (by simp [hchildren, Node.isElement])
  · exact h.congr (by simp [Node.isElement])

end Frame

/-- The namespaces inside the innermost of some open elements. -/
def Frame.around : List Frame → Scope
  | [] => []
  | f :: _ => f.scope

/-- Open elements, inner ones first, with the tags that have been read since the start of the
outermost one. -/
inductive Opened : List Frame → List Tag → Prop where
  | none : Opened [] []
  | more {f : Frame} {below : List Frame} {ts : List Tag} {name : WrittenName}
      {as : List (WrittenName × String)} {es : List Skeleton}
      (hbelow : Opened below ts) (hf : f.Holds (Frame.around below) name as es) :
      Opened (f :: below) (ts ++ .opening name as :: Skeleton.tagsAll es)

namespace Progress

/-- A document has been read so far when it has said some tags. -/
def Says : Progress → List Tag → Prop
  | .before, ts => ts = []
  | .inside top below, ts => Opened (top :: below) ts
  | .after root, ts => ∃ e : Skeleton, e.tags = ts ∧ e.Reads [] root

/-- The tags of an element that ends follow those in front of it. -/
theorem says_add {below : List Frame} {ts : List Tag} (h : Opened below ts) {e : Skeleton}
    {n : Node} (hn : e.Reads (Frame.around below) n) : (add n below).Says (ts ++ e.tags) := by
  cases h with
  | none => exact ⟨e, rfl, hn⟩
  | more hbelow hf =>
      have htags := hbelow.more (hf.add hn)
      rw [Skeleton.tagsAll_append] at htags
      simp only [Skeleton.tagsAll, List.append_nil] at htags
      rw [List.append_assoc, List.cons_append]
      exact htags

/-- A start tag has been said when its element is open, or has ended at once. -/
theorem says_open? {stack : List Frame} {ts : List Tag} (h : Opened stack ts) {f : Frame}
    {name : WrittenName} {as : List (WrittenName × String)}
    (hf : Frame.open? (Frame.around stack) name as = some f) (closed : Bool) :
    Says (if closed then add f.node stack else .inside f stack)
      (ts ++ (Token.start name as closed).tags) := by
  have hholds := Frame.holds_open? hf
  cases closed with
  | true => exact says_add h hholds.node
  | false => exact h.more hholds

/-- A token without tags leaves the innermost open element what it is. -/
theorem Says.replace {top top' : Frame} {below : List Frame} {ts : List Tag}
    (h : (inside top below).Says ts)
    (hf : ∀ {outer name as es}, top.Holds outer name as es → top'.Holds outer name as es) :
    (inside top' below).Says (ts ++ []) := by
  obtain _ | ⟨hbelow, htop⟩ := h
  rw [List.append_nil]
  exact hbelow.more (hf htop)

/-- What has been read says its tags with every token. -/
theorem says_step? {p p' : Progress} {ts : List Tag} {t : Token} (hp : p.Says ts)
    (h : p.step? t = some p') : p'.Says (ts ++ t.tags) := by
  unfold step? at h
  split at h
  -- the root starts
  · obtain ⟨f, hf, h⟩ := Option.bind_eq_some_iff.1 h
    obtain rfl := Option.some.inj h
    obtain rfl : ts = [] := hp
    exact says_open? .none hf _
  -- an element starts inside another
  · obtain ⟨f, hf, h⟩ := Option.bind_eq_some_iff.1 h
    obtain rfl := Option.some.inj h
    exact says_open? hp hf _
  -- an element ends: its name is the one with which it started
  · rename_i top below name
    split at h
    · rename_i hname
      obtain rfl := Option.some.inj h
      obtain _ | @⟨_, _, ts, name', as, es, hbelow, hf⟩ := hp
      rw [hf.written] at hname
      subst hname
      have hadd := says_add hbelow hf.node
      simpa [Skeleton.tags, Token.tags] using hadd
    · cases h
  -- texts and marks inside an element
  · obtain rfl := Option.some.inj h
    exact Says.replace hp fun hf => hf.addText _
  · obtain rfl := Option.some.inj h
    exact Says.replace hp fun hf => hf.addText _
  · obtain rfl := Option.some.inj h
    exact Says.replace hp fun hf => hf.congr rfl
  -- marks and blanks outside the root
  · obtain rfl := Option.some.inj h
    simpa [Token.tags] using hp
  · split at h
    · obtain rfl := Option.some.inj h
      simpa [Token.tags] using hp
    · cases h
  · cases h

/-- Tokens say their tags one after the other. -/
theorem says_steps {ts : List Token} {p p' : Progress} {said : List Tag} (hp : p.Says said)
    (h : ts.foldlM step? p = some p') : p'.Says (said ++ ts.flatMap Token.tags) := by
  induction ts generalizing p said with
  | nil =>
      obtain rfl := Option.some.inj h
      simpa using hp
  | cons t rest ih =>
      obtain ⟨q, hq, hrest⟩ := Option.bind_eq_some_iff.1 h
      rw [List.flatMap_cons, ← List.append_assoc]
      exact ih (says_step? hp hq) hrest

end Progress

/-- A document that is read has a skeleton, and its tree is what the skeleton is read as. -/
theorem Skeleton.exists_of_ofText? {input : String} {root : Node}
    (h : Node.ofText? input = some root) :
    ∃ e : Skeleton, e.Of input ∧ (Placed.mk [] e).Reads root := by
  obtain ⟨ts, hts, h⟩ := Option.bind_eq_some_iff.1 h
  obtain ⟨p, hp, hroot⟩ := Option.bind_eq_some_iff.1 h
  have hbefore : Progress.before.Says [] := rfl
  -- the progress tells the tags read so far; once the root is closed it tells all of them
  have hsays : p.Says (ts.flatMap Token.tags) := Progress.says_steps hbefore hp
  cases p with
  | after r =>
      obtain rfl := Option.some.inj hroot
      obtain ⟨e, htags, hreads⟩ := hsays
      refine ⟨e, ?_, hreads⟩
      rw [Of, tagsOf?, hts, htags]
      rfl
  | before => cases hroot
  | inside top below => cases hroot

end Markup
end Recast
