import Mathlib.Data.List.TakeWhile
import Recast.Proofs.Markup.Tree
import Recast.Proofs.Result

/-!
# Legal — what can be found in a document

Whatever is read from a document holds the characters of a document only, those given by references
among them, and every attribute has a bare name that declares no namespace: `Node.ofText?_legal`.
It is shown of tokens, of the frames that are open, and then of the tree.
-/

namespace Recast
namespace Markup

/-! ## Texts -/

def Legal (cs : List Char) : Prop :=
  ∀ c ∈ cs, isChar c = true

instance (cs : List Char) : Decidable (Legal cs) :=
  decidable_of_iff (cs.all isChar = true) List.all_eq_true

def Piece.char : Piece → Char
  | .written c => c
  | .referred c => c

/-- What a code point stands for may stand in a document. -/
theorem isChar_of_charOf? {n : Nat} {c : Char} (h : charOf? n = some c) : isChar c = true := by
  simp only [charOf?, Option.ite_none_left_eq_some, Option.ite_none_right_eq_some,
    Option.some.injEq] at h
  obtain ⟨-, hc, rfl⟩ := h
  exact hc

/-- What a reference stands for may stand in a document. -/
theorem isChar_of_referent? {name : List Char} {c : Char} (h : referent? name = some c) :
    isChar c = true := by
  unfold referent? at h
  split at h
  · obtain ⟨n, -, hn⟩ := Option.bind_eq_some_iff.1 h
    exact isChar_of_charOf? hn
  · split at h
    · obtain ⟨n, -, hn⟩ := Option.bind_eq_some_iff.1 h
      exact isChar_of_charOf? hn
    · cases h
  · unfold named? at h
    split at h
    all_goals cases h
    all_goals decide

/-- Characters that are given by references are those of a document too. -/
theorem legal_pieces? {cs : List Char} {ps : List Piece} (hcs : Legal cs)
    (h : pieces? cs = some ps) : Legal (ps.map Piece.char) := by
  fun_induction pieces? cs generalizing ps with
  | case1 =>
      obtain rfl := Option.some.inj h
      simp [Legal]
  | case2 => cases h
  | case3 rest d tail htail ih =>
      simp only [Option.bind_eq_bind, Option.bind_eq_some_iff] at h
      obtain ⟨c, hc, qs, hqs, hps⟩ := h
      obtain rfl := Option.some.inj hps
      -- what stands behind a reference is a part of the text
      have hsub : tail ⊆ rest := by
        intro e he
        have hmem : e ∈ rest.dropWhile (· != ';') := htail ▸ List.mem_cons_of_mem _ he
        exact (List.dropWhile_sublist _).subset hmem
      have hrest := ih (fun e he => hcs e (List.mem_cons_of_mem _ (hsub he))) hqs
      exact List.forall_mem_cons.2 ⟨isChar_of_referent? hc, hrest⟩
  | case4 c rest _ ih =>
      obtain ⟨qs, hqs, rfl⟩ := Option.map_eq_some_iff.1 h
      have hrest := ih (fun e he => hcs e (List.mem_cons_of_mem _ he)) hqs
      exact List.forall_mem_cons.2 ⟨hcs c List.mem_cons_self, hrest⟩

/-- The value of an attribute has no characters but those of its pieces, and blanks. -/
theorem legal_valueOf {ps : List Piece} (h : Legal (ps.map Piece.char)) : Legal (valueOf ps) := by
  fun_induction valueOf ps with
  | case1 => exact h
  -- a line break that is written is read as a blank, and so is the pair of both line breaks
  | case2 c rest ih =>
      obtain ⟨hc, hrest⟩ := List.forall_mem_cons.1 h
      exact List.forall_mem_cons.2 ⟨hc, ih hrest⟩
  | case3 rest ih =>
      obtain ⟨-, hmore⟩ := List.forall_mem_cons.1 h
      obtain ⟨-, hrest⟩ := List.forall_mem_cons.1 hmore
      exact List.forall_mem_cons.2 ⟨by decide, ih hrest⟩
  | case4 c rest _ ih =>
      obtain ⟨hc, hrest⟩ := List.forall_mem_cons.1 h
      refine List.forall_mem_cons.2 ⟨?_, ih hrest⟩
      split
      · decide
      · exact hc

theorem legal_readPiece {last : Bool} {state : List Char × Bool} {p : Piece}
    (hstate : Legal state.1) (hp : isChar p.char = true) : Legal (readPiece last state p).1 := by
  have hcons : ∀ {c cs}, isChar c = true → Legal cs → Legal (c :: cs) :=
    fun hc hcs => List.forall_mem_cons.2 ⟨hc, hcs⟩
  have hline : isChar '\n' = true := by decide
  unfold readPiece
  -- one case for each branch of the reading, which all put characters of their own in front
  split
  · exact hcons hp hstate
  · exact hcons hp hstate
  · split
    · -- the line break in front has been held back, and is settled now
      have hearlier := (List.forall_mem_cons.1 hstate).2
      split
      · exact hcons hline hearlier
      · split
        · exact hcons hline (hcons hline hearlier)
        · exact hcons hp (hcons hline hearlier)
    · refine hcons ?_ hstate
      split
      · exact hline
      · exact hp

/-- A text has no characters but those of its pieces, and line feeds. -/
theorem legal_readPieces {ps : List Piece} {state : List Char × Bool} (hstate : Legal state.1)
    (h : Legal (ps.map Piece.char)) : Legal (readPieces state ps).1 := by
  induction ps generalizing state with
  | nil => exact hstate
  | cons p rest ih =>
      obtain ⟨hp, hrest⟩ := List.forall_mem_cons.1 h
      exact ih (legal_readPiece hstate hp) hrest

/-- A text stands for characters of a document. -/
theorem legal_textOf {ps : List Piece} (h : Legal (ps.map Piece.char)) :
    Legal (textOf ps).toList := by
  have hnone : Legal ([], false).1 := fun c hc => by cases hc
  intro c hc
  rw [textOf, String.toList_ofList] at hc
  exact legal_readPieces hnone h c (List.mem_reverse.1 hc)

/-! ## Names and attributes -/

def LegalAttribute (name value : String) : Prop :=
  isBareName name = true ∧ Legal value.toList

/-- What stands behind the colon of a name is a name itself. -/
theorem isBareName_of_writtenName? {cs rest : List Char} {n : WrittenName}
    (h : writtenName? cs = some (n, rest)) : isBareName n.base = true := by
  -- the base is one of the halves, and no half holds a colon
  have hbase : ∀ base ∈ Text.split ':' (cs.takeWhile isNamePart), isHalfName base = true →
      isBareName (String.ofList base) = true := by
    intro base hmem hhalf
    obtain ⟨hcolon, hsub⟩ := Text.not_mem_of_mem_split hmem
    simp only [isBareName, String.toList_ofList, Bool.and_eq_true, List.all_eq_true, bne_iff_ne]
    refine ⟨hhalf, ?_⟩
    intro c hc
    constructor
    · exact List.mem_takeWhile_imp (hsub hc)
    · rintro rfl
      exact hcolon hc
  unfold writtenName? at h
  split at h
  · -- a name without a prefix
    rename_i base hsplit
    split at h
    · rename_i hhalf
      obtain ⟨rfl, rfl⟩ := Prod.mk.inj (Option.some.inj h)
      exact hbase base (by simp [hsplit]) hhalf
    · cases h
  · -- a name with a prefix, of which the base is the second half
    rename_i qualifier base hsplit
    split at h
    · rename_i hhalf
      obtain ⟨rfl, rfl⟩ := Prod.mk.inj (Option.some.inj h)
      exact hbase base (by simp [hsplit]) ((Bool.and_eq_true _ _).mp hhalf).2
    · cases h
  · cases h

/-- A quoted value has the characters of a document. -/
theorem legal_quotedValue? {quote : Char} {cs rest : List Char} {value : String}
    (h : quotedValue? quote cs = some (value, rest)) : Legal value.toList := by
  simp only [quotedValue?, Option.bind_eq_bind] at h
  split at h
  · cases h
  · rename_i hchars
    -- what stands between the quotes is part of the characters that have been checked
    have hinner : Legal (cs.takeWhile fun c => c != quote && c != '<') := by
      simpa [Legal] using hchars
    split at h
    · split at h
      · obtain ⟨ps, hps, hvalue⟩ := Option.bind_eq_some_iff.1 h
        obtain ⟨rfl, rfl⟩ := Prod.mk.inj (Option.some.inj hvalue)
        rw [String.toList_ofList]
        exact legal_valueOf (legal_pieces? hinner hps)
      · cases h
    · cases h

/-- An attribute that can be read is legal. -/
theorem legal_attribute? {cs rest : List Char} {a : WrittenName × String}
    (h : attribute? cs = some (a, rest)) : LegalAttribute a.1.base a.2 := by
  simp only [attribute?, Option.bind_eq_bind, Option.bind_eq_some_iff] at h
  obtain ⟨⟨name, more⟩, hname, h⟩ := h
  have hbare := isBareName_of_writtenName? hname
  split at h
  · -- the value stands in one kind of quotes or the other
    split at h
    · obtain ⟨⟨value, tail⟩, hvalue, h⟩ := Option.bind_eq_some_iff.1 h
      obtain ⟨rfl, rfl⟩ := Prod.mk.inj (Option.some.inj h)
      exact ⟨hbare, legal_quotedValue? hvalue⟩
    · obtain ⟨⟨value, tail⟩, hvalue, h⟩ := Option.bind_eq_some_iff.1 h
      obtain ⟨rfl, rfl⟩ := Prod.mk.inj (Option.some.inj h)
      exact ⟨hbare, legal_quotedValue? hvalue⟩
    · cases h
  · cases h

theorem legal_attributes? {cs rest : List Char} {as : List (WrittenName × String)} {closed : Bool}
    (h : attributes? cs = some (as, closed, rest)) : ∀ a ∈ as, LegalAttribute a.1.base a.2 := by
  fun_induction attributes? cs generalizing as closed rest with
  | case1 cs tail _ =>
      obtain rfl := (Prod.mk.inj (Option.some.inj h)).1
      simp
  | case2 cs tail _ =>
      obtain rfl := (Prod.mk.inj (Option.some.inj h)).1
      simp
  | case3 => cases h
  -- the attribute in front is followed by the others
  | case4 cs =>
      rename_i ih
      obtain ⟨⟨a, next⟩, ha, h⟩ := Option.bind_eq_some_iff.1 h
      dsimp only at h
      split at h
      · rename_i hlength
        obtain ⟨⟨more, ends, tail⟩, hmore, h⟩ := Option.bind_eq_some_iff.1 h
        obtain rfl := (Prod.mk.inj (Option.some.inj h)).1
        exact List.forall_mem_cons.2 ⟨legal_attribute? ha, ih next hlength hmore⟩
      · cases h

/-! ## Tokens -/

def Token.Legal : Token → Prop
  | .start _ as _ => ∀ a ∈ as, LegalAttribute a.1.base a.2
  | .text ps => Markup.Legal (ps.map Piece.char)
  | .verbatim cs => Markup.Legal cs
  | .stop _ | .mark => True

/-- The attributes of a start tag that can be read are legal. -/
theorem legal_start? {cs rest : List Char} {t : Token} (h : start? cs = some (t, rest)) :
    t.Legal := by
  simp only [start?, Option.bind_eq_bind, Option.bind_eq_some_iff] at h
  obtain ⟨⟨name, more⟩, -, ⟨as, closed, tail⟩, has, h⟩ := h
  obtain rfl := (Prod.mk.inj (Option.some.inj h)).1
  exact legal_attributes? has

/-- A text that can be read is legal. -/
theorem legal_text? {cs rest : List Char} {t : Token} (h : text? cs = some (t, rest)) :
    t.Legal := by
  simp only [text?, Option.bind_eq_bind] at h
  split at h
  · cases h
  · rename_i hchars
    obtain ⟨ps, hps, h⟩ := Option.bind_eq_some_iff.1 h
    obtain rfl := (Prod.mk.inj (Option.some.inj h)).1
    have hinner : Legal (cs.takeWhile (· != '<')) := by
      simp only [Bool.or_eq_true, not_or, Bool.not_eq_true, Bool.not_eq_false'] at hchars
      exact List.all_eq_true.1 hchars.1
    exact legal_pieces? hinner hps

theorem legal_verbatim? {cs rest : List Char} {t : Token} (h : verbatim? cs = some (t, rest)) :
    t.Legal := by
  simp only [verbatim?, Option.bind_eq_bind, Option.bind_eq_some_iff] at h
  obtain ⟨⟨inner, tail⟩, -, h⟩ := h
  split at h
  · rename_i hchars
    obtain rfl := (Prod.mk.inj (Option.some.inj h)).1
    exact List.all_eq_true.1 hchars
  · cases h

/-- A token that can be read is legal. -/
theorem legal_next? {cs rest : List Char} {t : Token} (h : next? cs = some (t, rest)) :
    t.Legal := by
  unfold next? at h
  -- one case for each start of a token, in the order of the scan
  split at h
  · simp only [comment?, Option.bind_eq_bind, Option.bind_eq_some_iff] at h
    obtain ⟨⟨inner, tail⟩, -, h⟩ := h
    split at h
    · cases h
    · obtain rfl := (Prod.mk.inj (Option.some.inj h)).1
      trivial
  · exact legal_verbatim? h
  · cases h
  · simp only [instruction?, Option.bind_eq_bind] at h
    split at h
    · cases h
    · obtain ⟨⟨inner, tail⟩, -, h⟩ := Option.bind_eq_some_iff.1 h
      split at h
      · obtain rfl := (Prod.mk.inj (Option.some.inj h)).1
        trivial
      · cases h
  · simp only [stop?, Option.bind_eq_bind, Option.bind_eq_some_iff] at h
    obtain ⟨⟨name, more⟩, -, h⟩ := h
    split at h
    · obtain rfl := (Prod.mk.inj (Option.some.inj h)).1
      trivial
    · cases h
  · exact legal_start? h
  · exact legal_text? h

/-- All tokens of a document are legal. -/
theorem legal_scan? {cs : List Char} {ts : List Token} (h : scan? cs = some ts) :
    ∀ t ∈ ts, t.Legal := by
  fun_induction scan? cs generalizing ts with
  | case1 =>
      obtain rfl := Option.some.inj h
      simp
  | case2 c more ih =>
      obtain ⟨⟨t, rest⟩, ht, h⟩ := Option.bind_eq_some_iff.1 h
      dsimp only at h
      -- the rest is scanned only where the token has taken something
      split at h
      · rename_i hlength
        obtain ⟨ts', hts', h⟩ := Option.bind_eq_some_iff.1 h
        obtain rfl := Option.some.inj h
        exact List.forall_mem_cons.2 ⟨legal_next? ht, ih rest hlength hts'⟩
      · cases h

/-! ## Trees -/

namespace Node

mutual
/-- Something is true of all attributes in a tree, and something of all texts. -/
def Every (A : String → String → Prop) (T : String → Prop) : Node → Prop
  | .element _ _ as children => (∀ a ∈ as, A a.name a.value) ∧ EveryIn A T children
  | .text s => T s
  | .mark => True

def EveryIn (A : String → String → Prop) (T : String → Prop) : List Node → Prop
  | [] => True
  | n :: rest => Every A T n ∧ EveryIn A T rest
end

/-- What is true in some trees is true in each of them. -/
theorem everyIn_iff {A : String → String → Prop} {T : String → Prop} {ns : List Node} :
    EveryIn A T ns ↔ ∀ n ∈ ns, n.Every A T := by
  induction ns with
  | nil => simp [EveryIn]
  | cons n rest ih => simp [EveryIn, ih]

/-- A tree as it can be found in a document: no attribute declares a namespace. -/
def Legal (n : Node) : Prop :=
  n.Every (fun name value => name ≠ "xmlns" ∧ LegalAttribute name value)
    (fun s => Markup.Legal s.toList)

end Node

structure Frame.Legal (f : Frame) : Prop where
  attributes : ∀ a ∈ f.attributes, a.name ≠ "xmlns" ∧ LegalAttribute a.name a.value
  children : ∀ n ∈ f.children, n.Legal

/-- The attributes that a tag keeps are legal, and declare nothing. -/
theorem legal_attributesIn? {s : Scope} {as : List (WrittenName × String)} {kept : List Attribute}
    (has : ∀ a ∈ as, LegalAttribute a.1.base a.2) (h : attributesIn? s as = some kept) :
    ∀ a ∈ kept, a.name ≠ "xmlns" ∧ LegalAttribute a.name a.value := by
  rw [attributesIn?_eq] at h
  refine foldlM_some_invariant
    (p := fun done : List Attribute => ∀ a ∈ done, a.name ≠ "xmlns" ∧ LegalAttribute a.name a.value)
    ?_ (by simp) h
  intro a ha done done' hdone hkeep
  obtain ⟨hmem, hname⟩ := List.mem_filter.1 ha
  simp only [keep?, Option.bind_eq_bind, Option.bind_eq_some_iff] at hkeep
  obtain ⟨space, -, hkeep⟩ := hkeep
  split at hkeep
  · cases hkeep
  · obtain rfl := Option.some.inj hkeep
    -- declarations have been left out
    have hxmlns : a.1.base ≠ "xmlns" := by
      intro e
      simp [Scope.isDeclaration, e] at hname
    intro b hb
    rcases List.mem_append.1 hb with hb | hb
    · exact hdone b hb
    · obtain rfl := List.mem_singleton.1 hb
      exact ⟨hxmlns, has a hmem⟩

/-- An element that has just been opened is legal. -/
theorem legal_open? {outer : Scope} {name : WrittenName} {as : List (WrittenName × String)}
    {f : Frame} (has : ∀ a ∈ as, LegalAttribute a.1.base a.2)
    (h : Frame.open? outer name as = some f) : f.Legal := by
  simp only [Frame.open?, Option.bind_eq_bind] at h
  split at h
  · cases h
  · simp only [Option.bind_eq_some_iff] at h
    obtain ⟨own, -, kept, hkept, space, -, h⟩ := h
    obtain rfl := Option.some.inj h
    exact ⟨legal_attributesIn? has hkept, by simp⟩

/-- A legal open element becomes a legal node. -/
theorem Frame.Legal.node {f : Frame} (h : f.Legal) : f.node.Legal := by
  refine ⟨h.attributes, Node.everyIn_iff.2 fun n hn => h.children n (List.mem_reverse.1 hn)⟩

/-- A legal child leaves an open element legal. -/
theorem Frame.Legal.add {f : Frame} (h : f.Legal) {n : Node} (hn : n.Legal) : (f.add n).Legal :=
  ⟨h.attributes, List.forall_mem_cons.2 ⟨hn, h.children⟩⟩

theorem Frame.Legal.addText {f : Frame} (h : f.Legal) {s : String} (hs : Markup.Legal s.toList) :
    (f.addText s).Legal := by
  unfold Frame.addText
  split
  · rename_i t earlier heq
    have hchildren := h.children
    rw [heq] at hchildren
    obtain ⟨ht, hearlier⟩ := List.forall_mem_cons.1 hchildren
    have hboth : Markup.Legal (t ++ s).toList := by
      intro c hc
      rw [String.toList_append, List.mem_append] at hc
      exact hc.elim (ht c) (hs c)
    exact ⟨h.attributes, List.forall_mem_cons.2 ⟨hboth, hearlier⟩⟩
  · exact h.add hs

def Progress.Legal : Progress → Prop
  | .before => True
  | .inside top below => ∀ f ∈ top :: below, f.Legal
  | .after root => root.Legal

/-- A legal element may end in legal open elements. -/
theorem Progress.legal_add {n : Node} (hn : n.Legal) {below : List Frame}
    (hbelow : ∀ f ∈ below, f.Legal) : (Progress.add n below).Legal := by
  cases below with
  | nil => exact hn
  | cons f rest =>
      obtain ⟨hf, hrest⟩ := List.forall_mem_cons.1 hbelow
      exact List.forall_mem_cons.2 ⟨hf.add hn, hrest⟩

/-- What has been read stays legal with every token. -/
theorem Progress.legal_step? {p p' : Progress} {t : Token} (hp : p.Legal) (ht : t.Legal)
    (h : p.step? t = some p') : p'.Legal := by
  unfold step? at h
  -- one case for each pair of a stage and a token that go together
  split at h
  · obtain ⟨f, hf, h⟩ := Option.bind_eq_some_iff.1 h
    obtain rfl := Option.some.inj h
    have hopen := legal_open? ht hf
    split
    · exact hopen.node
    · exact List.forall_mem_cons.2 ⟨hopen, by simp⟩
  · obtain ⟨f, hf, h⟩ := Option.bind_eq_some_iff.1 h
    obtain rfl := Option.some.inj h
    have hopen := legal_open? ht hf
    obtain ⟨htop, hbelow⟩ := List.forall_mem_cons.1 hp
    split
    · exact List.forall_mem_cons.2 ⟨htop.add hopen.node, hbelow⟩
    · exact List.forall_mem_cons.2 ⟨hopen, hp⟩
  · obtain ⟨htop, hbelow⟩ := List.forall_mem_cons.1 hp
    split at h
    · obtain rfl := Option.some.inj h
      exact legal_add htop.node hbelow
    · cases h
  · obtain ⟨htop, hbelow⟩ := List.forall_mem_cons.1 hp
    obtain rfl := Option.some.inj h
    exact List.forall_mem_cons.2 ⟨htop.addText (legal_textOf ht), hbelow⟩
  · rename_i cs
    obtain ⟨htop, hbelow⟩ := List.forall_mem_cons.1 hp
    obtain rfl := Option.some.inj h
    have hcs : Markup.Legal cs := ht
    have hpieces : Markup.Legal ((cs.map Piece.written).map Piece.char) := by
      rw [List.map_map]
      simpa [Function.comp_def, Piece.char] using hcs
    exact List.forall_mem_cons.2 ⟨htop.addText (legal_textOf hpieces), hbelow⟩
  · obtain ⟨htop, hbelow⟩ := List.forall_mem_cons.1 hp
    obtain rfl := Option.some.inj h
    exact List.forall_mem_cons.2 ⟨htop.add trivial, hbelow⟩
  · obtain rfl := Option.some.inj h
    exact hp
  · split at h
    · obtain rfl := Option.some.inj h
      exact hp
    · cases h
  · cases h

/-- Every tree that is read from a text is legal. -/
theorem Node.ofText?_legal {s : String} {root : Node} (h : Node.ofText? s = some root) :
    root.Legal := by
  obtain ⟨ts, hts, h⟩ := Option.bind_eq_some_iff.1 h
  obtain ⟨cs, -, hscan⟩ := Option.bind_eq_some_iff.1 hts
  obtain ⟨p, hp, hroot⟩ := Option.bind_eq_some_iff.1 h
  have hbefore : Progress.before.Legal := trivial
  have hlegal : p.Legal := foldlM_some_invariant (p := Progress.Legal)
    (fun t ht _ _ hq hstep => Progress.legal_step? hq (legal_scan? hscan t ht) hstep) hbefore hp
  cases p with
  | after r =>
      obtain rfl := Option.some.inj hroot
      exact hlegal
  | before => cases hroot
  | inside top below => cases hroot

end Markup
end Recast
