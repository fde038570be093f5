import Recast.Markup.Token

/-!
# Escape — texts that are written and read again

A text is written with references in the places of the characters that could be taken for markup.
Read again it gives its pieces: `pieces?_escaped`.  As the value of an attribute it stands for
itself, unless there is white space other than blanks in it: `valueRead_eq_self`.
-/

namespace Recast
namespace Markup

/-! ## Characters -/

/-- The characters that are written by a reference. -/
def isSpecial (c : Char) : Bool :=
  c = '<' || c = '>' || c = '&' || c = '\'' || c = '"'

def pieceOf (c : Char) : Piece :=
  if isSpecial c then .referred c else .written c

theorem escapedChar_of_not_special {c : Char} (h : isSpecial c = false) : escapedChar c = [c] := by
  simp only [isSpecial, Bool.or_eq_false_iff, decide_eq_false_iff_not] at h
  obtain ⟨⟨⟨⟨hlt, hgt⟩, hamp⟩, hapos⟩, hquot⟩ := h
  unfold escapedChar
  split <;> simp_all

/-- Five characters are written by a reference. -/
theorem special_cases {c : Char} (h : isSpecial c = true) :
    c = '<' ∨ c = '>' ∨ c = '&' ∨ c = '\'' ∨ c = '"' := by
  simpa [isSpecial, or_assoc] using h

/-- A reference that ends is one piece, if it stands for a character. -/
theorem pieces?_reference {name tail : List Char} (h : ';' ∉ name) :
    pieces? ('&' :: (name ++ ';' :: tail)) =
      (referent? name).bind fun c => (pieces? tail).map (.referred c :: ·) := by
  have hall : ∀ d ∈ name, (d != ';') = true := by
    intro d hd
    simpa using fun e : d = ';' => h (e ▸ hd)
  -- the name of a reference ends at the first semicolon
  have hdrop : (name ++ ';' :: tail).dropWhile (· != ';') = ';' :: tail := by
    rw [List.dropWhile_append_of_pos hall]
    simp
  have htake : (name ++ ';' :: tail).takeWhile (· != ';') = name := by
    rw [List.takeWhile_append_of_pos hall]
    simp
  rw [pieces?]
  split
  · rename_i hnil
    rw [hdrop] at hnil
    cases hnil
  · rename_i d tail' hcons
    rw [hdrop] at hcons
    obtain ⟨-, rfl⟩ := List.cons.inj hcons
    rw [htake]
    cases referent? name with
    | none => rfl
    | some c => cases pieces? tail <;> rfl

/-- A character besides the ampersand is a piece by itself. -/
theorem pieces?_written {c : Char} (h : c ≠ '&') (rest : List Char) :
    pieces? (c :: rest) = (pieces? rest).map (.written c :: ·) := by
  rw [pieces?]
  exact h

/-- A character that has been written is read as one piece. -/
theorem pieces?_escapedChar (c : Char) (rest : List Char) :
    pieces? (escapedChar c ++ rest) = (pieces? rest).map (pieceOf c :: ·) := by
  by_cases h : isSpecial c
  -- each of the five characters is written by its name
  · have hread : ∀ name d, ';' ∉ name → referent? name = some d →
        pieces? ('&' :: (name ++ ';' :: rest)) = (pieces? rest).map (.referred d :: ·) := by
      intro name d hname hreferent
      rw [pieces?_reference hname, hreferent, Option.bind_some]
    rcases special_cases h with rfl | rfl | rfl | rfl | rfl
    · exact hread ['l', 't'] '<' (by decide) (by decide)
    · exact hread ['g', 't'] '>' (by decide) (by decide)
    · exact hread ['a', 'm', 'p'] '&' (by decide) (by decide)
    · exact hread ['a', 'p', 'o', 's'] '\'' (by decide) (by decide)
    · exact hread ['q', 'u', 'o', 't'] '"' (by decide) (by decide)
  · have hspecial : isSpecial c = false := by simpa using h
    have hne : c ≠ '&' := by
      rintro rfl
      exact absurd hspecial (by decide)
    rw [escapedChar_of_not_special hspecial, List.singleton_append, pieces?_written hne, pieceOf,
      hspecial]
    rfl

/-! ## Texts -/

def piecesOf (s : String) : List Piece :=
  s.toList.map pieceOf

/-- An escaped text is read as the pieces of its characters. -/
theorem pieces?_escaped (s : String) : pieces? (escaped s) = some (piecesOf s) := by
  unfold escaped piecesOf
  induction s.toList with
  | nil => simp [pieces?]
  | cons c rest ih =>
      rw [List.flatMap_cons, pieces?_escapedChar, ih, List.map_cons, Option.map_some]

/-- Escaping brings in no character that would have to be escaped. -/
theorem mem_escapedChar {c d : Char} (h : d ∈ escapedChar c) :
    d = c ∧ isSpecial c = false ∨ isSpecial c = true ∧ d ∈ "&;abglmopqstu".toList := by
  by_cases hc : isSpecial c = true
  · have hall : (escapedChar c).all (fun e => e ∈ "&;abglmopqstu".toList) = true := by
      rcases special_cases hc with rfl | rfl | rfl | rfl | rfl <;> decide
    exact .inr ⟨hc, by simpa using List.all_eq_true.1 hall d h⟩
  · have hspecial : isSpecial c = false := by simpa using hc
    rw [escapedChar_of_not_special hspecial] at h
    exact .inl ⟨List.mem_singleton.1 h, hspecial⟩

/-- What is written has no tag and no quotation mark in it. -/
theorem not_mem_escaped {d : Char} (s : String) (hd : isSpecial d = true) (hamp : d ≠ '&') :
    d ∉ escaped s := by
  intro h
  obtain ⟨c, -, hdc⟩ := List.mem_flatMap.1 h
  rcases mem_escapedChar hdc with ⟨rfl, hc⟩ | ⟨-, hmem⟩
  · rw [hc] at hd
    cases hd
  · have hnone : ("&;abglmopqstu".toList.all fun e => !isSpecial e || e = '&') = true := by decide
    have hd' := List.all_eq_true.1 hnone d hmem
    simp only [hd, Bool.not_true, Bool.false_or, decide_eq_true_eq] at hd'
    exact hamp hd'

/-- What is written has the characters of a document if the text has. -/
theorem isChar_of_mem_escaped {s : String} (hs : ∀ c ∈ s.toList, isChar c = true) {d : Char}
    (h : d ∈ escaped s) : isChar d = true := by
  obtain ⟨c, hc, hdc⟩ := List.mem_flatMap.1 h
  rcases mem_escapedChar hdc with ⟨rfl, -⟩ | ⟨-, hmem⟩
  · exact hs d hc
  · have hall : "&;abglmopqstu".toList.all isChar = true := by decide
    exact List.all_eq_true.1 hall d hmem

/-! ## Values of attributes -/

/-- What a text stands for that has been written as the value of an attribute. -/
def valueRead (s : String) : String :=
  String.ofList (valueOf (piecesOf s))

/-- The characters that the value of an attribute keeps: no white space other than blanks. -/
def isValueChar (c : Char) : Bool :=
  !(c = '\t' || c = '\n' || c = '\r')

theorem isBlank_of_isValueChar {c : Char} (h : isValueChar c = true) (hb : isBlank c = true) :
    c = ' ' := by
  simp only [isValueChar, isBlank] at h hb
  simp_all

/-- A character that a value keeps is kept. -/
theorem valueOf_written {c : Char} (h : isValueChar c = true) (ps : List Piece) :
    valueOf (.written c :: ps) = c :: valueOf ps := by
  have hne : c ≠ '\r' := by
    rintro rfl
    exact absurd h (by decide)
  rw [valueOf]
  · by_cases hb : isBlank c = true
    · rw [if_pos hb, isBlank_of_isValueChar h hb]
    · rw [if_neg hb]
  · intro _ _ hc
    exact hne hc

/-- Without white space other than blanks a text stands for itself. -/
theorem valueRead_eq_self {s : String} (h : ∀ c ∈ s.toList, isValueChar c = true) :
    valueRead s = s := by
  have hlist : ∀ cs : List Char, (∀ c ∈ cs, isValueChar c = true) →
      valueOf (cs.map pieceOf) = cs := by
    intro cs hcs
    induction cs with
    | nil => rfl
    | cons c rest ih =>
        have hrest := ih fun d hd => hcs d (List.mem_cons_of_mem _ hd)
        rw [List.map_cons, pieceOf]
        by_cases hspecial : isSpecial c = true
        · rw [if_pos hspecial, valueOf, hrest]
        · rw [if_neg hspecial, valueOf_written (hcs c List.mem_cons_self), hrest]
  rw [valueRead, piecesOf, hlist _ h, String.ofList_toList]

/-- A value has no characters but those that it keeps, unless references bring them in. -/
theorem isValueChar_of_mem_valueOf {ps : List Piece}
    (h : ∀ c, .referred c ∈ ps → isValueChar c = true) :
    ∀ c ∈ valueOf ps, isValueChar c = true := by
  fun_induction valueOf ps with
  | case1 => simp
  | case2 d rest ih =>
      have hrest := ih fun c hc => h c (List.mem_cons_of_mem _ hc)
      exact List.forall_mem_cons.2 ⟨h d List.mem_cons_self, hrest⟩
  | case3 rest ih =>
      have hrest := ih fun c hc => h c (List.mem_cons_of_mem _ (List.mem_cons_of_mem _ hc))
      exact List.forall_mem_cons.2 ⟨rfl, hrest⟩
  | case4 d rest _ ih =>
      have hrest := ih fun c hc => h c (List.mem_cons_of_mem _ hc)
      refine List.forall_mem_cons.2 ⟨?_, hrest⟩
      by_cases hb : isBlank d = true
      · rw [if_pos hb]
        rfl
      · rw [if_neg hb]
        -- what is not blank is none of the characters that a value cannot hold
        simp only [isBlank, Bool.or_eq_true, not_or, decide_eq_true_eq] at hb
        simp [isValueChar, hb]

/-- No value that has been written holds white space other than blanks when it is read. -/
theorem isValueChar_of_mem_valueRead (s : String) :
    ∀ c ∈ (valueRead s).toList, isValueChar c = true := by
  intro c hc
  rw [valueRead, String.toList_ofList] at hc
  refine isValueChar_of_mem_valueOf (fun d hd => ?_) c hc
  obtain ⟨e, -, he⟩ := List.mem_map.1 hd
  unfold pieceOf at he
  by_cases hspecial : isSpecial e = true
  · rw [if_pos hspecial] at he
    obtain rfl := Piece.referred.inj he
    rcases special_cases hspecial with rfl | rfl | rfl | rfl | rfl <;> rfl
  · rw [if_neg hspecial] at he
    cases he

/-! ## Written texts in a document -/

variable {p : Char → Bool} {cs rest : List Char} {d : Char}

theorem takeWhile_append_cons (h : ∀ c ∈ cs, p c = true) (hd : p d = false) :
    (cs ++ d :: rest).takeWhile p = cs := by
  rw [List.takeWhile_append_of_pos h]
  simp [hd]

theorem dropWhile_append_cons (h : ∀ c ∈ cs, p c = true) (hd : p d = false) :
    (cs ++ d :: rest).dropWhile p = d :: rest := by
  rw [List.dropWhile_append_of_pos h]
  simp [hd]

/-- An escaped value is read up to its quotation mark. -/
theorem quotedValue?_escaped {s : String} (hs : ∀ c ∈ s.toList, isChar c = true)
    (rest : List Char) :
    quotedValue? '"' (escaped s ++ '"' :: rest) = some (valueRead s, rest) := by
  have hall : ∀ c ∈ escaped s, (c != '"' && c != '<') = true := by
    intro c hc
    have hquote : c ≠ '"' := fun e => not_mem_escaped s (by decide) (by decide) (e ▸ hc)
    have htag : c ≠ '<' := fun e => not_mem_escaped s (by decide) (by decide) (e ▸ hc)
    simp [hquote, htag]
  have hchars : (escaped s).all isChar = true :=
    List.all_eq_true.2 fun c hc => isChar_of_mem_escaped hs hc
  simp [quotedValue?, takeWhile_append_cons hall, dropWhile_append_cons hall, hchars,
    pieces?_escaped, valueRead]

/-- An escaped text is read up to the next tag. -/
theorem text?_escaped {s : String} (hs : ∀ c ∈ s.toList, isChar c = true) (rest : List Char) :
    text? (escaped s ++ '<' :: rest) = some (.text (piecesOf s), '<' :: rest) := by
  have hall : ∀ c ∈ escaped s, (c != '<') = true := by
    intro c hc
    simpa using fun e : c = '<' => not_mem_escaped s (by decide) (by decide) (e ▸ hc)
  have hchars : (escaped s).all isChar = true :=
    List.all_eq_true.2 fun c hc => isChar_of_mem_escaped hs hc
  -- an escaped text has no `>` in it, so no section ends there
  have hcut : Text.cut? [']', ']', '>'] (escaped s) = none := by
    cases hfound : Text.cut? [']', ']', '>'] (escaped s) with
    | none => rfl
    | some found =>
        have hmem : '>' ∈ escaped s := by
          rw [Text.append_of_cut? hfound]
          simp
        exact absurd hmem (not_mem_escaped s (by decide) (by decide))
  simp [text?, takeWhile_append_cons hall, dropWhile_append_cons hall, hchars, hcut,
    pieces?_escaped]

end Markup
end Recast
