import Recast.Markup.Outline
import Recast.Proofs.Markup.Escape

/-!
# Tag — tags that are written and read again

A tag whose names are bare, and whose values hold characters of a document only, is read as it has
been written: `start?_tagChars` and `stop?_name`.
-/

namespace Recast

namespace Markup

/-! ## Names -/

/-- Whether a text is a name without a qualifier. -/
def isBareName (s : String) : Bool :=
  isHalfName s.toList && s.toList.all fun c => isNamePart c && c != ':'

theorem bareName_cons {s : String} (h : isBareName s = true) :
    ∃ c rest, s.toList = c :: rest ∧ isNameStart c = true ∧ c ≠ ':' := by
  simp only [isBareName, Bool.and_eq_true, List.all_eq_true] at h
  obtain ⟨hhalf, hall⟩ := h
  cases hlist : s.toList with
  | nil => simp [hlist, isHalfName] at hhalf
  | cons c rest =>
      rw [hlist] at hhalf hall
      have hc := hall c List.mem_cons_self
      exact ⟨c, rest, rfl, by simpa [isHalfName] using hhalf, by simpa using hc.2⟩

/-- A bare name is read up to a character that no name goes on with. -/
theorem writtenName?_bare {s : String} (h : isBareName s = true) {d : Char}
    (hd : isNamePart d = false) (rest : List Char) :
    writtenName? (s.toList ++ d :: rest) = some (⟨"", s⟩, d :: rest) := by
  simp only [isBareName, Bool.and_eq_true, List.all_eq_true] at h
  obtain ⟨hhalf, hall⟩ := h
  have hpart : ∀ c ∈ s.toList, isNamePart c = true := fun c hc => (hall c hc).1
  have hcolon : ':' ∉ s.toList := by
    intro hc
    have hne := (hall ':' hc).2
    exact absurd hne (by decide)
  rw [writtenName?, takeWhile_append_cons hpart hd, dropWhile_append_cons hpart hd,
    Text.split_of_not_mem hcolon]
  simp [hhalf]

/-! ## Attributes -/

def attributeChars (a : String × String) : List Char :=
  ' ' :: a.1.toList ++ ['=', '"'] ++ escaped a.2 ++ ['"']

def attributeRead (a : String × String) : WrittenName × String :=
  (⟨"", a.1⟩, valueRead a.2)

/-- An attribute that can be read again: a bare name and a value of a document's characters. -/
def Readable (a : String × String) : Prop :=
  isBareName a.1 = true ∧ ∀ c ∈ a.2.toList, isChar c = true

instance (a : String × String) : Decidable (Readable a) :=
  decidable_of_iff (isBareName a.1 = true ∧ a.2.toList.all isChar = true)
    (and_congr Iff.rfl List.all_eq_true)

/-- A readable attribute is read back. -/
theorem attribute?_written {a : String × String} (h : Readable a) (rest : List Char) :
    attribute? (a.1.toList ++ '=' :: '"' :: (escaped a.2 ++ '"' :: rest)) =
      some (attributeRead a, rest) := by
  have hequals : isNamePart '=' = false := by decide
  have hname := writtenName?_bare h.1 hequals ('"' :: (escaped a.2 ++ '"' :: rest))
  have hskip : ∀ cs, skipBlank ('=' :: cs) = '=' :: cs ∧ skipBlank ('"' :: cs) = '"' :: cs :=
    fun _ => ⟨rfl, rfl⟩
  simp only [attribute?, hname, Option.bind_eq_bind, Option.bind_some, (hskip _).1, (hskip _).2,
    quotedValue?_escaped h.2]
  rfl

inductive TagEnd : List Char → Bool → Prop where
  | closed : TagEnd ['/', '>'] true
  | opened : TagEnd ['>'] false

theorem attributes?_end {close : List Char} {closed : Bool} (h : TagEnd close closed)
    (rest : List Char) : attributes? (close ++ rest) = some ([], closed, rest) := by
  rw [attributes?]
  cases h <;> rfl

theorem ne_of_isNameStart {c d : Char} (h : isNameStart c = true) (hd : isNameStart d = false) :
    c ≠ d := by
  rintro rfl
  rw [h] at hd
  cases hd

theorem not_isBlank_of_isNameStart {c : Char} (h : isNameStart c = true) : isBlank c = false := by
  have hspace := ne_of_isNameStart h (d := ' ') (by decide)
  have htab := ne_of_isNameStart h (d := '\t') (by decide)
  have hline := ne_of_isNameStart h (d := '\n') (by decide)
  have hreturn := ne_of_isNameStart h (d := '\r') (by decide)
  simp [isBlank, hspace, htab, hline, hreturn]

/-- One more readable attribute in front is read as well. -/
theorem attributes?_cons {a : String × String} (ha : Readable a) {tail rest : List Char}
    {more : List (WrittenName × String)} {closed : Bool}
    (h : attributes? tail = some (more, closed, rest)) :
    attributes? (attributeChars a ++ tail) = some (attributeRead a :: more, closed, rest) := by
  obtain ⟨c, name, hname, hstart, -⟩ := bareName_cons ha.1
  have hskip : skipBlank (attributeChars a ++ tail) =
      a.1.toList ++ '=' :: '"' :: (escaped a.2 ++ '"' :: tail) := by
    have hblank := not_isBlank_of_isNameStart hstart
    have hspace : isBlank ' ' = true := rfl
    simp [attributeChars, skipBlank, hname, hblank, hspace]
  have hhead : (attributeChars a ++ tail).head?.map isBlank = some true := rfl
  have hlength : tail.length < (attributeChars a ++ tail).length := by
    simp [attributeChars]
    omega
  have hread := attribute?_written ha tail
  rw [attributes?, hskip]
  rw [hname, List.cons_append] at hread ⊢
  -- a name begins with neither sign that ends a tag, so an attribute is read
  split
  · rename_i hslash
    exact absurd (List.cons.inj hslash).1 (ne_of_isNameStart hstart (by decide))
  · rename_i hclose
    exact absurd (List.cons.inj hclose).1 (ne_of_isNameStart hstart (by decide))
  · simp only [hhead, hread, Option.bind_eq_bind, Option.bind_some, dif_pos hlength, h]
    rfl

/-! ## Tags -/

theorem tagChars_eq (name : String) (as : List (String × String)) :
    Outline.tagChars name as = name.toList ++ as.flatMap attributeChars := by
  rfl

/-- The attributes of a tag are read back if they are readable. -/
theorem attributes?_written {as : List (String × String)} (has : ∀ a ∈ as, Readable a)
    {close : List Char} {closed : Bool} (hclose : TagEnd close closed) (rest : List Char) :
    attributes? (as.flatMap attributeChars ++ (close ++ rest)) =
      some (as.map attributeRead, closed, rest) := by
  induction as with
  | nil => exact attributes?_end hclose rest
  | cons a more ih =>
      rw [List.flatMap_cons, List.append_assoc, List.map_cons]
      exact attributes?_cons (has a List.mem_cons_self)
        (ih fun b hb => has b (List.mem_cons_of_mem _ hb))

/-- A start tag is read as it has been written. -/
theorem start?_tagChars {name : String} {as : List (String × String)}
    (hname : isBareName name = true) (has : ∀ a ∈ as, Readable a) {close : List Char}
    {closed : Bool} (hclose : TagEnd close closed) (rest : List Char) :
    start? (Outline.tagChars name as ++ (close ++ rest)) =
      some (.start ⟨"", name⟩ (as.map attributeRead) closed, rest) := by
  -- behind the name comes a blank or the end of the tag, but no further part of a name
  have hnext : ∃ d tail, as.flatMap attributeChars ++ (close ++ rest) = d :: tail ∧
      isNamePart d = false := by
    cases as with
    | cons a more => exact ⟨' ', _, rfl, by decide⟩
    | nil =>
        cases hclose with
        | closed => exact ⟨'/', _, rfl, by decide⟩
        | opened => exact ⟨'>', _, rfl, by decide⟩
  obtain ⟨d, tail, heq, hd⟩ := hnext
  have hread := attributes?_written has hclose rest
  rw [tagChars_eq, List.append_assoc]
  rw [heq] at hread ⊢
  simp [start?, writtenName?_bare hname hd, hread]

/-- An end tag is read as it has been written. -/
theorem stop?_name {name : String} (hname : isBareName name = true) (rest : List Char) :
    stop? (name.toList ++ '>' :: rest) = some (.stop ⟨"", name⟩, rest) := by
  have hclose : isNamePart '>' = false := by decide
  have hskip : skipBlank ('>' :: rest) = '>' :: rest := rfl
  simp [stop?, writtenName?_bare hname hclose, hskip]

end Markup
end Recast
