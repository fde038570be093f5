import Recast.Markup.Node
import Recast.Proofs.Markup.Layout

/-!
# Tree — written documents as trees

`Outline.node` is the tree that is read where an element has been written: the element with its
attributes as they are read, and a text for every line break.  `Node.ofText?_document` says so of
whole documents, whose root declares the namespace of all elements.
-/

namespace Recast
namespace Markup

/-! ## Elements inside a namespace -/

/-- What a text stands for that has been written between tags. -/
def textRead (s : String) : String :=
  textOf (piecesOf s)

/-- Behind characters without a carriage return, one that is none is read as itself. -/
theorem readPiece_pieceOf {done : List Char} {c : Char} (last kept : Bool)
    (hdone : '\r' ∉ done) (hc : c ≠ '\r') :
    (readPiece last (done, kept) (pieceOf c)).1 = c :: done := by
  unfold pieceOf
  -- a special character is referred to, and a reference is read as it is
  by_cases hspecial : isSpecial c = true
  · rw [if_pos hspecial]
    rfl
  · rw [if_neg hspecial]
    cases kept with
    | true => rfl
    | false =>
        cases done with
        | nil => simp [readPiece, hc]
        | cons d earlier =>
            have hd : d ≠ '\r' := fun e => hdone (e ▸ List.mem_cons_self)
            simp [readPiece, hc, hd]

/-- Without carriage returns, a text that has been written is read as it was. -/
theorem readPieces_pieces (cs : List Char) (hcs : '\r' ∉ cs) (state : List Char × Bool)
    (hstate : '\r' ∉ state.1) :
    (readPieces state (cs.map pieceOf)).1 = cs.reverse ++ state.1 := by
  induction cs generalizing state with
  | nil => rfl
  | cons c rest ih =>
      obtain ⟨hc, hrest⟩ : '\r' ≠ c ∧ '\r' ∉ rest := by simpa using hcs
      have hstep := readPiece_pieceOf (rest.map pieceOf).isEmpty state.2 hstate hc.symm
      have hnext : '\r' ∉ (readPiece (rest.map pieceOf).isEmpty state (pieceOf c)).1 := by
        rw [hstep]
        simp [hc, hstate]
      calc (readPieces state ((c :: rest).map pieceOf)).1
          = rest.reverse ++ (readPiece (rest.map pieceOf).isEmpty state (pieceOf c)).1 := by
            rw [List.map_cons, readPieces, ih hrest _ hnext]
        _ = rest.reverse ++ c :: state.1 := by rw [hstep]
        _ = (c :: rest).reverse ++ state.1 := by simp

/-- Without carriage returns a text stands for itself. -/
theorem textRead_eq_self {s : String} (h : '\r' ∉ s.toList) : textRead s = s := by
  rw [textRead, textOf, piecesOf, readPieces_pieces s.toList h ([], false) (by simp)]
  simp

namespace Outline

def attributesRead (as : List (String × String)) : List Attribute :=
  as.map fun a => ⟨none, a.1, valueRead a.2⟩

def gapNode (level : Nat) : Node :=
  .text (textRead (String.ofList (newline level)))

def lineNodes (text : String) : List Node :=
  if text = "" then [] else [.text (textRead text)]

mutual
/-- The tree that is read where an element has been written. -/
def node (s : Scope) (level : Nat) : Outline → Node
  | .leaf name as => .element name (labelIn s s.default? name) (attributesRead as) []
  | .line name text =>
      .element name (labelIn s s.default? name) [] (lineNodes text)
  | .block name as children =>
      .element name (labelIn s s.default? name) (attributesRead as)
        (nodes s (level + 1) children ++ [gapNode level])

def nodes (s : Scope) (level : Nat) : List Outline → List Node
  | [] => []
  | o :: rest => gapNode level :: node s level o :: nodes s level rest
end

/-- Tags whose attributes have names of their own and declare no namespace. -/
def DistinctTags (ts : List (String × List (String × String))) : Prop :=
  ∀ t ∈ ts, (t.2.map Prod.fst).Nodup ∧ "xmlns" ∉ t.2.map Prod.fst

end Outline

open Outline

/-! ## Frames -/

theorem isDeclaration_bare {k : String} (hk : k ≠ "xmlns") :
    Scope.isDeclaration ⟨"", k⟩ = false := by
  simp [Scope.isDeclaration, hk]

/-- Attributes besides `xmlns` declare no namespace. -/
theorem filter_declarations {as : List (String × String)} (h : "xmlns" ∉ as.map Prod.fst) :
    ((as.map attributeRead).filter fun a => Scope.isDeclaration a.1) = [] ∧
      ((as.map attributeRead).filter fun a => !Scope.isDeclaration a.1) = as.map attributeRead := by
  have hnone : ∀ a ∈ as.map attributeRead, Scope.isDeclaration a.1 = false := by
    intro a ha
    obtain ⟨b, hb, rfl⟩ := List.mem_map.1 ha
    exact isDeclaration_bare fun e => h (e ▸ List.mem_map_of_mem hb)
  refine ⟨List.filter_eq_nil_iff.2 fun a ha => by simp [hnone a ha], ?_⟩
  exact List.filter_eq_self.2 fun a ha => by simp [hnone a ha]

/-- Keep an attribute if none of its name has been kept. -/
def keep? (s : Scope) (done : List Attribute) (a : WrittenName × String) :
    Option (List Attribute) := do
  let space ← s.ofAttribute? a.1
  if done.any fun b => b.space = space && b.name = a.1.base then none
  return done ++ [⟨space, a.1.base, a.2⟩]

/-- The attributes of a tag are kept one after the other. -/
theorem attributesIn?_eq (s : Scope) (as : List (WrittenName × String)) :
    attributesIn? s as = (as.filter fun a => !Scope.isDeclaration a.1).foldlM (keep? s) [] := rfl

/-- An attribute with a new name is kept. -/
theorem keep?_new {s : Scope} {done : List Attribute} {a : WrittenName × String}
    {space : Option String} (hspace : s.ofAttribute? a.1 = some space)
    (hnew : ∀ b ∈ done, b.name ≠ a.1.base) :
    keep? s done a = some (done ++ [⟨space, a.1.base, a.2⟩]) := by
  have hany : (done.any fun b => b.space = space && b.name = a.1.base) = false := by
    rw [List.any_eq_false]
    intro b hb
    simpa using fun _ => hnew b hb
  simp only [keep?, hspace, Option.bind_eq_bind, Option.bind_some, hany]
  rfl

/-- Attributes of distinct bare names are kept in their order. -/
theorem attributesIn?_written (s : Scope) {as : List (String × String)}
    (hxmlns : "xmlns" ∉ as.map Prod.fst) (hnodup : (as.map Prod.fst).Nodup) :
    attributesIn? s (as.map attributeRead) = some (attributesRead as) := by
  rw [attributesIn?_eq, (filter_declarations hxmlns).2]
  -- the attributes kept so far have other names
  suffices h : ∀ done : List (String × String), ((done ++ as).map Prod.fst).Nodup →
      (as.map attributeRead).foldlM (keep? s) (attributesRead done) =
        some (attributesRead (done ++ as)) from h [] hnodup
  clear hnodup hxmlns
  induction as with
  | nil => intro done _; simp
  | cons a rest ih =>
      intro done hdone
      have hnew : ∀ b ∈ attributesRead done, b.name ≠ a.1 := by
        intro b hb
        obtain ⟨c, hc, rfl⟩ := List.mem_map.1 hb
        rw [List.map_append, List.nodup_append] at hdone
        exact hdone.2.2 c.1 (List.mem_map_of_mem hc) a.1 (by simp)
      have hkeep : keep? s (attributesRead done) (attributeRead a) =
          some (attributesRead (done ++ [a])) :=
        (keep?_new rfl hnew).trans (by simp [attributesRead, attributeRead])
      have hnext := ih (done ++ [a]) (by simpa using hdone)
      rw [List.map_cons, List.foldlM_cons, hkeep, Option.bind_eq_bind, Option.bind_some, hnext,
        List.append_assoc]
      rfl

/-- A written start tag opens its element. -/
theorem open?_written (s : Scope) (name : String) {as : List (String × String)}
    (hnodup : (as.map Prod.fst).Nodup) (hxmlns : "xmlns" ∉ as.map Prod.fst) :
    Frame.open? s ⟨"", name⟩ (as.map attributeRead) =
      some ⟨⟨"", name⟩, labelIn s s.default? name, attributesRead as, s, []⟩ := by
  have hdeclared : Scope.declared? (as.map attributeRead) = some [] := by
    rw [Scope.declared?, (filter_declarations hxmlns).1]
    rfl
  have hwithin : Scope.within [] s = s := rfl
  have hspace : s.ofElement? ⟨"", name⟩ = some s.default? := rfl
  simp only [Frame.open?, hdeclared, Option.bind_eq_bind, Option.bind_some, hwithin,
    attributesIn?_written s hxmlns hnodup, hspace]
  rfl

/-! ## Progress -/

/-- A frame whose last child is no text, so that a text becomes a child of its own. -/
def Frame.Clear (f : Frame) : Prop :=
  ∀ t earlier, f.children ≠ .text t :: earlier

namespace Progress

variable {top : Frame} {below : List Frame}

/-- A line break becomes a text in the element at hand. -/
theorem foldlM_gap (h : top.Clear) (level : Nat) (rest : List Token) :
    (gap level :: rest).foldlM step? (.inside top below) =
      rest.foldlM step? (.inside (top.add (gapNode level)) below) := by
  have hadd : top.addText (textRead (String.ofList (newline level))) = top.add (gapNode level) := by
    unfold Frame.addText
    split
    · rename_i t earlier heq
      exact absurd heq (h t earlier)
    · rfl
  have hstep : step? (.inside top below) (gap level) =
      some (.inside (top.add (gapNode level)) below) :=
    congrArg (fun f => some (Progress.inside f below)) hadd
  rw [List.foldlM_cons, hstep]
  rfl

def opened (top : Frame) (name : String) (as : List (String × String)) : Frame :=
  ⟨⟨"", name⟩, labelIn top.scope top.scope.default? name, attributesRead as, top.scope, []⟩

/-- A start tag opens its element, and an empty one ends at once. -/
theorem step?_start {name : String} {as : List (String × String)}
    (hnodup : (as.map Prod.fst).Nodup) (hxmlns : "xmlns" ∉ as.map Prod.fst) (closed : Bool) :
    step? (.inside top below) (.start ⟨"", name⟩ (as.map attributeRead) closed) =
      some (if closed then .inside (top.add (opened top name as).node) below
        else .inside (opened top name as) (top :: below)) := by
  simp only [step?, open?_written top.scope name hnodup hxmlns, Option.bind_eq_bind,
    Option.bind_some]
  cases closed <;> rfl

/-- What stands between the tags of an element becomes its children. -/
theorem foldlM_element {name : String} {as : List (String × String)}
    (hnodup : (as.map Prod.fst).Nodup) (hxmlns : "xmlns" ∉ as.map Prod.fst) {inner : List Token}
    {children : List Node}
    (hinner : ∀ ts, (inner ++ ts).foldlM step? (.inside (opened top name as) (top :: below)) =
      ts.foldlM step?
        (.inside { opened top name as with children := children.reverse } (top :: below)))
    (rest : List Token) :
    (.start ⟨"", name⟩ (as.map attributeRead) false ::
        (inner ++ (.stop ⟨"", name⟩ :: rest))).foldlM step? (.inside top below) =
      rest.foldlM step? (.inside (top.add (.element name
        (labelIn top.scope top.scope.default? name) (attributesRead as) children)) below) := by
  rw [List.foldlM_cons, step?_start hnodup hxmlns]
  simp only [Option.bind_eq_bind, Option.bind_some, Bool.false_eq_true, if_false, hinner]
  simp [step?, opened, Progress.add, Frame.node]

theorem clear_of_nil {f : Frame} (h : f.children = []) : f.Clear := by
  intro t earlier heq
  rw [h] at heq
  cases heq

theorem clear_add_node (f : Frame) (s : Scope) (level : Nat) (o : Outline) :
    (f.add (o.node s level)).Clear := by
  intro t earlier heq
  cases o <;> exact absurd (List.cons.inj heq).1 (by simp [node])

/-- Behind elements, each with a line break in front, the last child is no text. -/
theorem clear_nodes {f : Frame} (h : f.Clear) (s : Scope) (level : Nat) (os : List Outline) :
    Frame.Clear { f with children := (nodes s level os).reverse ++ f.children } := by
  induction os generalizing f with
  | nil => exact h
  | cons o more ih =>
      have hfirst := clear_add_node (f.add (gapNode level)) s level o
      simpa [nodes, Frame.add] using ih hfirst

/-- The text of a line becomes the only child. -/
theorem foldlM_lineTokens {f : Frame} (h : f.children = []) (text : String) (rest : List Token) :
    (lineTokens text ++ rest).foldlM step? (.inside f below) =
      rest.foldlM step? (.inside { f with children := lineNodes text } below) := by
  cases f
  cases h
  by_cases htext : text = ""
  · rw [lineTokens, lineNodes, if_pos htext, if_pos htext]
    rfl
  · rw [lineTokens, lineNodes, if_neg htext, if_neg htext]
    rfl

theorem reverse_lineNodes (text : String) : (lineNodes text).reverse = lineNodes text := by
  unfold lineNodes
  by_cases h : text = "" <;> simp [h]

mutual
/-- The tokens of an element add its tree to what it stands in. -/
theorem foldlM_tokens (level : Nat) (o : Outline) (hdistinct : DistinctTags o.tags) (top : Frame)
    (below : List Frame) (h : top.Clear) (rest : List Token) :
    (o.tokens level ++ rest).foldlM step? (.inside top below) =
      rest.foldlM step?
        (.inside ((top.add (gapNode level)).add (o.node top.scope level)) below) := by
  cases o with
  | leaf name as =>
      obtain ⟨hnodup, hxmlns⟩ := hdistinct (name, as) (by simp [tags])
      rw [tokens, List.cons_append, foldlM_gap h, List.singleton_append, List.foldlM_cons,
        step?_start hnodup hxmlns]
      rfl
  | line name text =>
      have hinner : ∀ (f : Frame) (fs : List Frame) (ts : List Token), f.children = [] →
          (lineTokens text ++ ts).foldlM step? (.inside f fs) =
            ts.foldlM step? (.inside { f with children := (lineNodes text).reverse } fs) := by
        intro f fs ts hf
        rw [foldlM_lineTokens hf, reverse_lineNodes]
      rw [tokens, List.cons_append, foldlM_gap h, List.cons_append, List.append_assoc]
      have hnodup : (([] : List (String × String)).map Prod.fst).Nodup := List.nodup_nil
      exact foldlM_element hnodup (by simp) (fun ts => hinner _ _ ts rfl) rest
  | block name as children =>
      obtain ⟨hnodup, hxmlns⟩ := hdistinct (name, as) (by simp [tags])
      have hall := foldlM_tokensAll (level + 1) children
        fun t ht => hdistinct t (by simp [tags, ht])
      have hinner : ∀ (f : Frame) (fs : List Frame) (ts : List Token), f.children = [] →
          ((tokensAll (level + 1) children ++ [gap level]) ++ ts).foldlM step? (.inside f fs) =
            ts.foldlM step? (.inside
              { f with children := (nodes f.scope (level + 1) children ++ [gapNode level]).reverse }
              fs) := by
        intro f fs ts hf
        -- the last line break stands alone, since an element or nothing stands in front of it
        have hclear := clear_of_nil hf
        rw [List.append_assoc, hall f fs hclear, List.singleton_append,
          foldlM_gap (clear_nodes hclear f.scope (level + 1) children)]
        simp [Frame.add, hf]
      have hend : tokensAll (level + 1) children ++ [gap level, .stop ⟨"", name⟩] ++ rest =
          (tokensAll (level + 1) children ++ [gap level]) ++ (.stop ⟨"", name⟩ :: rest) := by
        simp
      rw [tokens, List.cons_append, foldlM_gap h, List.cons_append, hend]
      exact foldlM_element hnodup hxmlns (fun ts => hinner _ _ ts rfl) rest

/-- The tokens of elements add their trees, each behind the text of its line break. -/
theorem foldlM_tokensAll (level : Nat) (os : List Outline) (hdistinct : DistinctTags (tagsAll os))
    (top : Frame) (below : List Frame) (h : top.Clear) (rest : List Token) :
    (tokensAll level os ++ rest).foldlM step? (.inside top below) =
      rest.foldlM step? (.inside { top with
        children := (nodes top.scope level os).reverse ++ top.children } below) := by
  cases os with
  | nil => rfl
  | cons o more =>
      have hfirst := foldlM_tokens level o (fun t ht => hdistinct t (by simp [tagsAll, ht])) top
        below h (tokensAll level more ++ rest)
      have hrest := foldlM_tokensAll level more (fun t ht => hdistinct t (by simp [tagsAll, ht]))
        ((top.add (gapNode level)).add (o.node top.scope level)) below
        (clear_add_node _ _ _ _) rest
      rw [tokensAll, List.append_assoc, hfirst, hrest]
      simp [nodes, Frame.add]
end

end Progress

/-! ## Documents -/

/-- The scope of a root that declares a namespace for all elements. -/
def rootScope (space : String) : Scope := [(none, space)]

/-- A namespace that is declared as it is written. -/
def Declares (space : String) : Prop :=
  Scope.declare? [] ⟨"", "xmlns"⟩ (valueRead space) = some (rootScope space)

instance (space : String) : Decidable (Declares space) :=
  inferInstanceAs (Decidable (_ = _))

/-- The root opens with the namespace that it declares. -/
theorem open?_root {space : String} (hspace : Declares space) (name : String)
    {as : List (String × String)} (hnodup : (as.map Prod.fst).Nodup)
    (hxmlns : "xmlns" ∉ as.map Prod.fst) :
    Frame.open? [] ⟨"", name⟩ ((("xmlns", space) :: as).map attributeRead) =
      some ⟨⟨"", name⟩, labelIn (rootScope space) (some space) name, attributesRead as,
        rootScope space, []⟩ := by
  have hread : (("xmlns", space) :: as).map attributeRead =
      (⟨"", "xmlns"⟩, valueRead space) :: as.map attributeRead := rfl
  -- `xmlns` is the one declaration, and it is not among the attributes that are kept
  have hdeclared : Scope.declared? ((⟨"", "xmlns"⟩, valueRead space) :: as.map attributeRead) =
      some (rootScope space) := by
    rw [Scope.declared?, List.filter_cons_of_pos rfl, (filter_declarations hxmlns).1,
      List.foldlM_cons, hspace]
    rfl
  have hkept : ∀ s, attributesIn? s ((⟨"", "xmlns"⟩, valueRead space) :: as.map attributeRead) =
      some (attributesRead as) := by
    intro s
    have hsame := attributesIn?_written s hxmlns hnodup
    rw [attributesIn?_eq] at hsame ⊢
    rw [List.filter_cons_of_neg (by simp [Scope.isDeclaration])]
    exact hsame
  have hwithin : Scope.within (rootScope space) [] = rootScope space := rfl
  have hdefault : (rootScope space).ofElement? ⟨"", name⟩ = some (some space) := rfl
  simp only [Frame.open?, hread, hdeclared, Option.bind_eq_bind, Option.bind_some, hwithin, hkept,
    hdefault]
  rfl

/-- The tree of a written document whose root declares the namespace of all elements. -/
theorem ofText?_document {space name : String} {as : List (String × String)}
    {children : List Outline} (hspace : Declares space)
    (htags : ReadableTags ((name, ("xmlns", space) :: as) :: tagsAll children))
    (htexts : ReadableTexts (textsAll children))
    (hdistinct : DistinctTags ((name, as) :: tagsAll children)) :
    Node.ofText? (document (.block name (("xmlns", space) :: as) children)) =
      some (.element name (labelIn (rootScope space) (some space) name) (attributesRead as)
        (nodes (rootScope space) 1 children ++ [gapNode 0])) := by
  obtain ⟨hnodup, hxmlns⟩ := hdistinct (name, as) List.mem_cons_self
  have htokens := tokens?_document (.block name (("xmlns", space) :: as) children)
    (by simpa [tags] using htags) (by simpa [texts] using htexts)
  -- the line break in front of the root is blank
  have hgap : Progress.step? .before (gap 0) = some .before := rfl
  have hstart : Progress.step? .before
      (.start ⟨"", name⟩ ((("xmlns", space) :: as).map attributeRead) false) =
        some (.inside ⟨⟨"", name⟩, labelIn (rootScope space) (some space) name, attributesRead as,
          rootScope space, []⟩ []) := by
    simp only [Progress.step?, open?_root hspace name hnodup hxmlns, Option.bind_eq_bind,
      Option.bind_some]
    rfl
  have hclear : Frame.Clear ⟨⟨"", name⟩, labelIn (rootScope space) (some space) name,
      attributesRead as, rootScope space, []⟩ := Progress.clear_of_nil rfl
  have hinner := Progress.foldlM_tokensAll 1 children
    (fun t ht => hdistinct t (List.mem_cons_of_mem _ ht)) _ [] hclear
    [gap 0, .stop ⟨"", name⟩]
  rw [Node.ofText?, htokens, Option.bind_some, Node.ofTokens?, tokens, List.foldlM_cons, hgap,
    Option.bind_eq_bind, Option.bind_some, List.foldlM_cons, hstart, Option.bind_eq_bind,
    Option.bind_some]
  -- the root is open; its children are read, and the line break and the tag behind them
  rw [hinner, Progress.foldlM_gap (Progress.clear_nodes hclear _ 1 children)]
  simp [Progress.step?, Progress.add, Progress.finish?, Frame.node, Frame.add]

/-! ## Access -/

namespace Outline

/-- The elements among the trees are those that have been written. -/
theorem filter_isElement_nodes (s : Scope) (level : Nat) (os : List Outline) :
    (nodes s level os).filter Node.isElement = os.map (node s level) := by
  induction os with
  | nil => rfl
  | cons o rest ih =>
      have helement : (node s level o).isElement = true := by cases o <;> rfl
      have hgap : ¬ (gapNode level).isElement = true := by simp [gapNode, Node.isElement]
      calc (nodes s level (o :: rest)).filter Node.isElement
          = (node s level o :: nodes s level rest).filter Node.isElement := by
            rw [nodes, List.filter_cons_of_neg hgap]
        _ = node s level o :: (nodes s level rest).filter Node.isElement :=
            List.filter_cons_of_pos helement
        _ = (o :: rest).map (node s level) := by rw [ih, List.map_cons]

/-- The elements inside a block are those that have been written. -/
theorem elements_block (s : Scope) (level : Nat) (name : String) (as : List (String × String))
    (children : List Outline) :
    (node s level (.block name as children)).elements = children.map (node s (level + 1)) := by
  have hgap : [gapNode level].filter Node.isElement = [] := rfl
  calc (node s level (.block name as children)).elements
      = (nodes s (level + 1) children ++ [gapNode level]).filter Node.isElement := by
        rw [node, Node.elements, Node.children]
    _ = children.map (node s (level + 1)) := by
        rw [List.filter_append, filter_isElement_nodes, hgap, List.append_nil]

/-- Attributes whose values are read as they have been written. -/
def Kept (as : List (String × String)) : Prop :=
  ∀ a ∈ as, valueRead a.2 = a.2

/-- Attributes whose values are kept are read as they were. -/
theorem attributesRead_kept {as : List (String × String)} (h : Kept as) :
    attributesRead as = as.map fun a => ⟨none, a.1, a.2⟩ :=
  List.map_congr_left fun a ha => by rw [h a ha]

end Outline

end Markup
end Recast
