/-!
# Placeholder — names in texts

A placeholder is a dollar sign followed by a name between two brackets; the name has one character
or more, and none of them is the closing bracket.  `parts` finds the placeholders of a text from
left to right, `fill` puts texts in their places.
-/

namespace Recast
namespace Placeholder

/-- A part of a text with placeholders. -/
inductive Part where
  | char (c : Char)
  | name (n : String)
  deriving DecidableEq, Repr

/-- The parts of a text, for the given brackets. -/
def parts (opening closing : Char) : List Char → List Part
  | '$' :: d :: more =>
      if d = opening && !(more.takeWhile (· != closing)).isEmpty then
        match _h : more.dropWhile (· != closing) with
        | [] => .char '$' :: parts opening closing (d :: more)
        | _ :: tail =>
            .name (String.ofList (more.takeWhile (· != closing))) :: parts opening closing tail
      else .char '$' :: parts opening closing (d :: more)
  | c :: rest => .char c :: parts opening closing rest
  | [] => []
termination_by cs => cs.length
decreasing_by
  all_goals simp only [List.length_cons]
  · omega
  · have := (@List.dropWhile_sublist _ more (· != closing)).length_le
    rw [_h, List.length_cons] at this
    omega
  · omega
  · omega

def names (ps : List Part) : List String :=
  ps.filterMap fun
    | .char _ => none
    | .name n => some n

/-- The text with each placeholder replaced. -/
def fill (value : String → String) (ps : List Part) : String :=
  String.ofList (ps.flatMap fun
    | .char c => [c]
    | .name n => (value n).toList)

/-! ## Texts without placeholders -/

/-- No placeholder begins in a text. -/
def Plain (opening : Char) (cs : List Char) : Prop :=
  ¬ ['$', opening] <:+: cs

instance (opening : Char) (cs : List Char) : Decidable (Plain opening cs) :=
  inferInstanceAs (Decidable (¬ ['$', opening] <:+: cs))

theorem Plain.tail {opening c : Char} {cs : List Char} (h : Plain opening (c :: cs)) :
    Plain opening cs :=
  fun hat => h (List.infix_cons hat)

/-- Where there is no dollar sign no placeholder begins. -/
theorem plain_of_not_mem {opening : Char} {cs : List Char} (h : '$' ∉ cs) : Plain opening cs :=
  fun hat => h (hat.subset (by simp))

/-- A text without dollar signs behind a separator does not make a placeholder. -/
theorem Plain.append {opening d : Char} {cs ds : List Char} (h : Plain opening cs)
    (hd : d ≠ opening) (hds : '$' ∉ d :: ds) : Plain opening (cs ++ d :: ds) := by
  induction cs with
  | nil => exact plain_of_not_mem hds
  | cons c rest ih =>
      intro hat
      rw [List.cons_append, List.infix_cons_iff] at hat
      -- an opening at the front lies across the joint or within the first text
      rcases hat with hprefix | hat
      · cases rest with
        | nil =>
            have hsecond : opening = d := by simpa using (List.cons_prefix_cons.1 hprefix).2
            exact hd hsecond.symm
        | cons c' more =>
            obtain ⟨hfirst, hsecond⟩ := List.cons_prefix_cons.1 hprefix
            have hsecond : opening = c' := by simpa using hsecond
            exact h ⟨[], more, by simp [← hfirst, ← hsecond]⟩
      · exact ih h.tail hat

/-- A plain text has no parts but its characters. -/
theorem parts_of_plain {opening closing : Char} {cs : List Char} (h : Plain opening cs) :
    parts opening closing cs = cs.map .char := by
  fun_induction parts opening closing cs with
  | case1 d more hname _ ih => rw [List.map_cons, ih h.tail]
  | case2 d more hname =>
      -- the bracket behind the dollar sign would begin a placeholder
      obtain ⟨rfl, -⟩ : d = opening ∧ _ := by simpa using hname
      exact absurd ⟨[], more, rfl⟩ h
  | case3 d more _ ih => rw [List.map_cons, ih h.tail]
  | case4 c rest _ ih => rw [List.map_cons, ih h.tail]
  | case5 => rfl

/-- Filling a text in which no placeholder begins changes nothing. -/
theorem fill_parts_of_plain {opening closing : Char} {s : String} (h : Plain opening s.toList)
    (value : String → String) : fill value (parts opening closing s.toList) = s := by
  rw [parts_of_plain h, fill, List.flatMap_map]
  simp

end Placeholder
end Recast
