import Mathlib.Data.List.TakeWhile
import Recast.Text.Placeholder

/-!
# Placeholder — templates filled in once

What becomes of a template is said here without its parts: from left to right, a reference gives way
to the text of its name, and any other character is kept.  `Placeholder.Filled` says so of a template
and a text, and `Placeholder.filled_iff` that this text is the one that filling in the parts gives.
-/

namespace Recast
namespace Placeholder

variable {opening closing : Char} {value : String → String} {cs out : List Char}

/-- A text begins with a reference to a name of one character or more and goes on with a rest. -/
structure Refers (opening closing : Char) (name rest cs : List Char) : Prop where
  nonempty : name ≠ []
  closed : closing ∉ name
  here : cs = '$' :: opening :: (name ++ closing :: rest)

/-- What becomes of a template: a reference at its front is replaced by the text of its name, or else
its first character is kept, and then the same is done to the rest.  What has been put in for a
reference is not read again. -/
inductive Filled (opening closing : Char) (value : String → String) : List Char → List Char → Prop
  | nil : Filled opening closing value [] []
  | name {name rest cs out : List Char} (h : Refers opening closing name rest cs)
      (hrest : Filled opening closing value rest out) :
      Filled opening closing value cs ((value (String.ofList name)).toList ++ out)
  | char {c : Char} {rest out : List Char}
      (h : ∀ name tail, ¬ Refers opening closing name tail (c :: rest))
      (hrest : Filled opening closing value rest out) :
      Filled opening closing value (c :: rest) (c :: out)

/-- The name of a reference goes up to the first closing bracket. -/
theorem Refers.spans {name rest more : List Char} {d : Char}
    (h : Refers opening closing name rest ('$' :: d :: more)) :
    d = opening ∧ more.takeWhile (· != closing) = name ∧
      more.dropWhile (· != closing) = closing :: rest := by
  obtain ⟨hd, rfl⟩ : d = opening ∧ more = name ++ closing :: rest := by simpa using h.here
  have hname : ∀ c ∈ name, (c != closing) = true := by
    intro c hc
    simpa using fun e : c = closing => h.closed (e ▸ hc)
  refine ⟨hd, ?_, ?_⟩
  · rw [List.takeWhile_append_of_pos hname]
    simp
  · rw [List.dropWhile_append_of_pos hname]
    simp

/-- There is one reference at most at the front of a text. -/
theorem Refers.unique {name rest name' rest' : List Char} (h : Refers opening closing name rest cs)
    (h' : Refers opening closing name' rest' cs) : name = name' ∧ rest = rest' := by
  obtain rfl := h.here
  obtain ⟨-, hname, hrest⟩ := h.spans
  obtain ⟨-, hname', hrest'⟩ := h'.spans
  exact ⟨hname.symm.trans hname', (List.cons.inj (hrest.symm.trans hrest')).2⟩

/-- A template is filled in in one way only. -/
theorem Filled.unique {out' : List Char} (h : Filled opening closing value cs out)
    (h' : Filled opening closing value cs out') : out = out' := by
  induction h generalizing out' with
  | nil =>
      -- a name may stand in front of any text, so the text is made a variable before the cases
      generalize hnil : ([] : List Char) = cs at h'
      cases h' with
      | nil => rfl
      | name hname _ => cases hnil.trans hname.here
      | char => cases hnil
  | name hname _ ih =>
      cases h' with
      | nil => cases hname.here
      | name hname' hrest =>
          obtain ⟨rfl, rfl⟩ := hname.unique hname'
          rw [ih hrest]
      | char hnone _ => exact absurd hname (hnone _ _)
  | char hnone _ ih =>
      generalize htext : _ :: _ = text at h'
      cases h' with
      | nil => cases htext
      | name hname _ => exact absurd (htext ▸ hname) (hnone _ _)
      | char _ hrest =>
          obtain ⟨rfl, rfl⟩ := List.cons.inj htext
          rw [ih hrest]

theorem fill_char (value : String → String) (c : Char) (ps : List Part) :
    (fill value (.char c :: ps)).toList = c :: (fill value ps).toList := by
  simp [fill]

theorem fill_name (value : String → String) (n : String) (ps : List Part) :
    (fill value (.name n :: ps)).toList = (value n).toList ++ (fill value ps).toList := by
  simp [fill]

/-- Filling in the parts of a template fills in the template. -/
theorem filled_fill (value : String → String) (cs : List Char) :
    Filled opening closing value cs (fill value (parts opening closing cs)).toList := by
  fun_induction parts opening closing cs with
  | case1 d more _ hopen ih =>
      -- the bracket is never closed
      rw [fill_char]
      refine .char (fun name tail h => ?_) ih
      cases hopen.symm.trans h.spans.2.2
  | case2 d more hname c tail hclose ih =>
      rw [fill_name]
      obtain ⟨rfl, hne⟩ : d = opening ∧ more.takeWhile (· != closing) ≠ [] := by
        simpa using hname
      obtain rfl : c = closing := by
        have hfirst := List.head?_dropWhile_not (· != closing) more
        rw [hclose] at hfirst
        simpa using hfirst
      refine .name ⟨hne, fun hmem => ?_, ?_⟩ ih
      · simpa using List.mem_takeWhile_imp hmem
      · rw [← hclose, List.takeWhile_append_dropWhile]
  | case3 d more hname ih =>
      rw [fill_char]
      refine .char (fun name tail h => hname ?_) ih
      obtain ⟨rfl, htake, -⟩ := h.spans
      simp [htake, h.nonempty]
  | case4 c rest hother ih =>
      rw [fill_char]
      refine .char (fun name tail h => ?_) ih
      obtain ⟨rfl, rfl⟩ := List.cons.inj h.here
      exact hother _ _ rfl rfl
  | case5 => simpa [fill] using Filled.nil

/-- Filling a template gives the one text that it can become. -/
theorem filled_iff : Filled opening closing value cs out ↔
    out = (fill value (parts opening closing cs)).toList :=
  ⟨fun h => h.unique (filled_fill value cs), fun h => h ▸ filled_fill value cs⟩

end Placeholder
end Recast
