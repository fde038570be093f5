import Recast.Proofs.Markup.Tag

/-!
# Layout — written documents token by token

`Outline.tokens` are the tokens of an element that is written: its tags, its texts, and the line
breaks in front of tags.  If all tags and texts can be read again, these are the tokens that are
found in the document: `Outline.tokens?_document`.
-/

namespace Recast
namespace Markup

/-! ## Single tokens -/

/-- Scanning takes one token, and goes on behind it. -/
theorem scan?_cons {c : Char} {more rest : List Char} {t : Token}
    (h : next? (c :: more) = some (t, rest)) (hlength : rest.length ≤ more.length) :
    scan? (c :: more) = (scan? rest).map (t :: ·) := by
  rw [scan?, h]
  simp only [Option.bind_eq_bind, Option.bind_some, dif_pos hlength]
  cases scan? rest <;> rfl

theorem next?_text {c : Char} (hc : c ≠ '<') (more : List Char) :
    next? (c :: more) = text? (c :: more) := by
  unfold next?
  split
  all_goals first
    | rfl
    | (rename_i heq
       exact absurd (List.cons.inj heq).1 hc)

theorem next?_start {c : Char} (hc : isNameStart c = true) (more : List Char) :
    next? ('<' :: c :: more) = start? (c :: more) := by
  have hne : ∀ d, isNameStart d = false → c ≠ d := fun d hd => ne_of_isNameStart hc hd
  rw [next?]
  all_goals
    intro rest heq
    exact absurd (List.cons.inj heq).1 (hne _ (by decide))

/-- An escaped text is scanned as its pieces. -/
theorem scan?_text {s : String} (hs : ∀ c ∈ s.toList, isChar c = true) (hne : s ≠ "")
    (rest : List Char) :
    scan? (escaped s ++ '<' :: rest) = (scan? ('<' :: rest)).map (.text (piecesOf s) :: ·) := by
  have htext := text?_escaped hs rest
  have hstart : '<' ∉ escaped s := not_mem_escaped s (by decide) (by decide)
  cases hlist : escaped s with
  | nil =>
      -- only the empty text is written as nothing
      exfalso
      have hsome : s.toList ≠ [] := fun h => hne (String.toList_eq_nil_iff.1 h)
      obtain ⟨c, cs, hcs⟩ := List.exists_cons_of_ne_nil hsome
      have hpieces := pieces?_escaped s
      rw [hlist, pieces?, piecesOf, hcs] at hpieces
      cases hpieces
  | cons c more =>
      rw [hlist] at htext hstart
      have hc : c ≠ '<' := fun e => hstart (e ▸ List.mem_cons_self)
      rw [List.cons_append] at htext ⊢
      refine scan?_cons ((next?_text hc _).trans htext) ?_
      simp

theorem scan?_start {name : String} {as : List (String × String)} (hname : isBareName name = true)
    (has : ∀ a ∈ as, Readable a) {close : List Char} {closed : Bool} (hclose : TagEnd close closed)
    (rest : List Char) :
    scan? ('<' :: (Outline.tagChars name as ++ (close ++ rest))) =
      (scan? rest).map (.start ⟨"", name⟩ (as.map attributeRead) closed :: ·) := by
  have hread := start?_tagChars hname has hclose rest
  obtain ⟨c, cs, hcs, hstart, -⟩ := bareName_cons hname
  have hlength : rest.length ≤ (Outline.tagChars name as ++ (close ++ rest)).length := by
    simp only [List.length_append]
    omega
  refine scan?_cons ?_ hlength
  rw [Outline.tagChars, hcs, List.cons_append, List.cons_append] at hread ⊢
  rw [next?_start hstart, hread]

/-- An end tag is scanned as written. -/
theorem scan?_stop {name : String} (hname : isBareName name = true) (rest : List Char) :
    scan? (Outline.stopChars name ++ rest) = (scan? rest).map (.stop ⟨"", name⟩ :: ·) := by
  have hread := stop?_name hname rest
  have heq : Outline.stopChars name ++ rest = '<' :: '/' :: (name.toList ++ '>' :: rest) := by
    simp [Outline.stopChars]
  rw [heq]
  refine scan?_cons ?_ ?_
  · simp only [next?, hread]
  · simp only [List.length_cons, List.length_append]
    omega

/-! ## Elements -/

namespace Outline

mutual
def tags : Outline → List (String × List (String × String))
  | .leaf name as => [(name, as)]
  | .line name _ => [(name, [])]
  | .block name as children => (name, as) :: tagsAll children

def tagsAll : List Outline → List (String × List (String × String))
  | [] => []
  | o :: rest => tags o ++ tagsAll rest
end

mutual
def texts : Outline → List String
  | .leaf .. => []
  | .line _ text => [text]
  | .block _ _ children => textsAll children

def textsAll : List Outline → List String
  | [] => []
  | o :: rest => texts o ++ textsAll rest
end

def gap (level : Nat) : Token :=
  .text (piecesOf (String.ofList (newline level)))

def lineTokens (text : String) : List Token :=
  if text = "" then [] else [.text (piecesOf text)]

mutual
/-- The tokens of an element, from the line break in front of it on. -/
def tokens (level : Nat) : Outline → List Token
  | .leaf name as => [gap level, .start ⟨"", name⟩ (as.map attributeRead) true]
  | .line name text =>
      gap level :: .start ⟨"", name⟩ [] false ::
        (lineTokens text ++ [.stop ⟨"", name⟩])
  | .block name as children =>
      gap level :: .start ⟨"", name⟩ (as.map attributeRead) false ::
        (tokensAll (level + 1) children ++ [gap level, .stop ⟨"", name⟩])

def tokensAll (level : Nat) : List Outline → List Token
  | [] => []
  | o :: rest => tokens level o ++ tokensAll level rest
end

def ReadableTags (ts : List (String × List (String × String))) : Prop :=
  ∀ t ∈ ts, isBareName t.1 = true ∧ ∀ a ∈ t.2, Readable a

def ReadableTexts (ts : List String) : Prop :=
  ∀ t ∈ ts, ∀ c ∈ t.toList, isChar c = true

/-- A line break with its indent is scanned as a text. -/
theorem scan?_gap (level : Nat) (rest : List Char) :
    scan? (newline level ++ '<' :: rest) = (scan? ('<' :: rest)).map (gap level :: ·) := by
  have hmem : ∀ c ∈ newline level, c = '\n' ∨ c = ' ' := by
    intro c hc
    rcases List.mem_cons.1 hc with rfl | hc
    · exact .inl rfl
    · exact .inr (List.eq_of_mem_replicate hc)
  -- blanks and line feeds are written as they are
  have hescaped : escaped (String.ofList (newline level)) = newline level := by
    rw [escaped, String.toList_ofList]
    have hsame : ∀ cs : List Char, (∀ c ∈ cs, c = '\n' ∨ c = ' ') →
        cs.flatMap escapedChar = cs := by
      intro cs hcs
      induction cs with
      | nil => rfl
      | cons c more ih =>
          rw [List.flatMap_cons, ih fun d hd => hcs d (List.mem_cons_of_mem _ hd)]
          rcases hcs c List.mem_cons_self with rfl | rfl <;> rfl
    exact hsame _ hmem
  have hchars : ∀ c ∈ (String.ofList (newline level)).toList, isChar c = true := by
    intro c hc
    rw [String.toList_ofList] at hc
    rcases hmem c hc with rfl | rfl <;> rfl
  have hne : String.ofList (newline level) ≠ "" := by
    intro h
    have hlist := congrArg String.toList h
    rw [String.toList_ofList] at hlist
    cases hlist
  have hscan := scan?_text hchars hne rest
  rwa [hescaped] at hscan

/-- The text and the end of an element on one line. -/
theorem scan?_lineText {name text : String} (hname : isBareName name = true)
    (htext : ∀ c ∈ text.toList, isChar c = true) (rest : List Char) :
    scan? (escaped text ++ (stopChars name ++ rest)) =
      (scan? rest).map fun ts => lineTokens text ++ (.stop ⟨"", name⟩ :: ts) := by
  have hstop := scan?_stop hname rest
  by_cases hne : text = ""
  · subst hne
    exact hstop
  · have hopen : stopChars name ++ rest = '<' :: ('/' :: (name.toList ++ '>' :: rest)) := by
      simp [stopChars]
    rw [hopen] at hstop ⊢
    rw [lineTokens, if_neg hne, scan?_text htext hne, hstop]
    cases scan? rest <;> rfl

/-- The end of an element on a line of its own. -/
theorem scan?_blockEnd {level : Nat} {name : String} (hname : isBareName name = true)
    (rest : List Char) :
    scan? (newline level ++ (stopChars name ++ rest)) =
      (scan? rest).map fun ts => gap level :: .stop ⟨"", name⟩ :: ts := by
  have hopen : stopChars name ++ rest = '<' :: ('/' :: (name.toList ++ '>' :: rest)) := by
    simp [stopChars]
  have hstop := scan?_stop hname rest
  rw [hopen] at hstop ⊢
  rw [scan?_gap, hstop]
  cases scan? rest <;> rfl

mutual
/-- A written element is cut into its tokens. -/
theorem scan?_chars (level : Nat) (o : Outline) (htags : ReadableTags o.tags)
    (htexts : ReadableTexts o.texts) (rest : List Char) :
    scan? (o.chars level ++ rest) = (scan? rest).map (o.tokens level ++ ·) := by
  -- each form is its gap and its tags, read one after the other by the lemmas on a single tag
  cases o with
  | leaf name as =>
      obtain ⟨hname, has⟩ := htags (name, as) (by simp [tags])
      have heq : (leaf name as).chars level ++ rest =
          newline level ++ '<' :: (tagChars name as ++ (['/', '>'] ++ rest)) := by
        simp [chars]
      rw [heq, scan?_gap, scan?_start hname has .closed]
      cases scan? rest <;> rfl
  | line name text =>
      obtain ⟨hname, has⟩ := htags (name, []) (by simp [tags])
      have htext := htexts text (by simp [texts])
      have heq : (line name text).chars level ++ rest = newline level ++
          '<' :: (tagChars name [] ++ (['>'] ++ (escaped text ++ (stopChars name ++ rest)))) := by
        simp [chars]
      rw [heq, scan?_gap, scan?_start hname has .opened, scan?_lineText hname htext]
      cases scan? rest <;> simp [tokens]
  | block name as children =>
      obtain ⟨hname, has⟩ := htags (name, as) (by simp [tags])
      have hinner := scan?_charsAll (level + 1) children (fun t ht => htags t (by simp [tags, ht]))
        (fun t ht => htexts t (by simpa [texts] using ht))
        (newline level ++ (stopChars name ++ rest))
      have heq : (block name as children).chars level ++ rest = newline level ++
          '<' :: (tagChars name as ++ (['>'] ++ (charsAll (level + 1) children ++
            (newline level ++ (stopChars name ++ rest))))) := by
        simp [chars]
      rw [heq, scan?_gap, scan?_start hname has .opened, hinner, scan?_blockEnd hname]
      cases scan? rest <;> simp [tokens]

/-- Written elements are cut into their tokens. -/
theorem scan?_charsAll (level : Nat) (os : List Outline) (htags : ReadableTags (tagsAll os))
    (htexts : ReadableTexts (textsAll os)) (rest : List Char) :
    scan? (charsAll level os ++ rest) = (scan? rest).map (tokensAll level os ++ ·) := by
  cases os with
  | nil => simp [charsAll, tokensAll]
  | cons o more =>
      have hfirst := scan?_chars level o (fun t ht => htags t (by simp [tagsAll, ht]))
        (fun t ht => htexts t (by simp [textsAll, ht])) (charsAll level more ++ rest)
      have hrest := scan?_charsAll level more (fun t ht => htags t (by simp [tagsAll, ht]))
        (fun t ht => htexts t (by simp [textsAll, ht])) rest
      rw [charsAll, List.append_assoc, hfirst, hrest, tokensAll]
      cases scan? rest <;> simp
end

/-! ## Documents -/

theorem passAttribute?_written {a : String × String} (h : Readable a) (rest : List Char) :
    passAttribute? a.1.toList (a.1.toList ++ '=' :: '"' :: (escaped a.2 ++ '"' :: rest)) =
      some rest := by
  have hfits : a.1.toList.isPrefixOf
      (a.1.toList ++ '=' :: '"' :: (escaped a.2 ++ '"' :: rest)) = true :=
    List.isPrefixOf_iff_prefix.2 (List.prefix_append _ _)
  rw [passAttribute?, if_pos hfits, attribute?_written h]
  rfl

/-- The declaration is passed over. -/
theorem passDeclaration?_written (rest : List Char) :
    passDeclaration? (declaration.toList ++ rest) = some rest := by
  have hversion : Readable ("version", "1.0") := by decide
  have hencoding : Readable ("encoding", "UTF-8") := by decide
  -- the declaration is cut where the reader stops
  have hparts : declaration.toList ++ rest = '<' :: '?' :: 'x' :: 'm' :: 'l' :: ' ' ::
      ("version".toList ++ '=' :: '"' :: (escaped "1.0" ++ '"' ::
        (' ' :: ("encoding".toList ++ '=' :: '"' :: (escaped "UTF-8" ++ '"' ::
          ('?' :: '>' :: rest)))))) := rfl
  have hfirst := passAttribute?_written hversion
    (' ' :: ("encoding".toList ++ '=' :: '"' :: (escaped "UTF-8" ++ '"' :: ('?' :: '>' :: rest))))
  have hsecond := passAttribute?_written hencoding ('?' :: '>' :: rest)
  have hskip : ∀ cs, skipBlank ("version".toList ++ cs) = "version".toList ++ cs ∧
      "version".toList.isPrefixOf ("version".toList ++ cs) = true := fun _ => ⟨rfl, rfl⟩
  have hblank : ∀ cs,
      passBlank? (' ' :: ("encoding".toList ++ cs)) = some ("encoding".toList ++ cs) ∧
      "encoding".toList.isPrefixOf ("encoding".toList ++ cs) = true := fun _ => ⟨rfl, rfl⟩
  have hend : passBlank? ('?' :: '>' :: rest) = some ('?' :: '>' :: rest) := rfl
  have hstandalone : passAttribute? "standalone".toList ('?' :: '>' :: rest) =
      some ('?' :: '>' :: rest) := rfl
  have hclose : skipBlank ('?' :: '>' :: rest) = '?' :: '>' :: rest := rfl
  rw [hparts, passDeclaration?]
  simp only [(hskip _).1, (hskip _).2, Bool.not_true, Bool.false_eq_true, if_false, hfirst,
    Option.bind_some, (hblank _).1, Option.bind_eq_bind, (hblank _).2, if_true, hsecond, hend,
    hstandalone, hclose]
  rfl

/-- A written document is cut into the tokens of its root. -/
theorem tokens?_document (root : Outline) (htags : ReadableTags root.tags)
    (htexts : ReadableTexts root.texts) :
    tokens? (document root).toList = some (root.tokens 0) := by
  have hmark : passByteOrderMark (declaration.toList ++ root.chars 0) =
      declaration.toList ++ root.chars 0 := rfl
  have hscan := scan?_chars 0 root htags htexts []
  rw [List.append_nil] at hscan
  calc tokens? (document root).toList
      = (passDeclaration? (passByteOrderMark (declaration.toList ++ root.chars 0))).bind scan? := by
        rw [document, String.toList_ofList, tokens?]
    _ = scan? (root.chars 0) := by rw [hmark, passDeclaration?_written, Option.bind_some]
    _ = some (root.tokens 0) := by simpa [scan?] using hscan

end Outline
end Markup
end Recast
