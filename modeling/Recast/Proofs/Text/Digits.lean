import Recast.Text.Blank
import Recast.Text.Count

/-!
# Digits — texts that are counts

A text that can be read as a count has digits in it, and perhaps a plus sign: trimming changes
nothing, and no placeholder begins in it.
-/

namespace Recast

namespace Count

/-- What can be read as a number consists of digits. -/
theorem digits_of_readDigits {limit n m : Nat} {cs : List Char} (h : readDigits limit n cs = .ok m) :
    ∀ c ∈ cs, c.isDigit := by
  induction cs generalizing n with
  | nil => simp
  | cons d rest ih =>
      unfold readDigits at h
      by_cases hd : d.isDigit
      · rw [if_neg (by simp [hd])] at h
        by_cases hlimit : limit < n * 10 + (d.toNat - '0'.toNat)
        · rw [if_pos hlimit] at h
          cases h
        · rw [if_neg hlimit] at h
          intro c hc
          rcases List.mem_cons.1 hc with rfl | hc
          · exact hd
          · exact ih h c hc
      · rw [if_pos (by simp [hd])] at h
        cases h

/-- What can be read as a count consists of digits, with a plus sign in front of them at most. -/
theorem chars_of_read {limit n : Nat} {cs : List Char} (h : read limit cs = .ok n) :
    ∀ c ∈ cs, c.isDigit ∨ c = '+' := by
  unfold read at h
  split at h
  · cases h
  · cases h
  · intro c hc
    rcases List.mem_cons.1 hc with rfl | hc
    · exact .inr rfl
    · exact .inl (digits_of_readDigits h c hc)
  · exact fun c hc => .inl (digits_of_readDigits h c hc)

end Count

namespace Text

theorem not_isBlank_of_isDigit {c : Char} (h : c.isDigit = true) : isBlank c = false := by
  simp only [Char.isDigit, Bool.and_eq_true, decide_eq_true_eq] at h
  obtain ⟨h0, h9⟩ := h
  have h0' : 48 ≤ c.toNat := h0
  have h9' : c.toNat ≤ 57 := h9
  simp only [isBlank]
  simp
  omega

/-- A text that neither starts nor ends with a blank character stays as it is. -/
theorem trim_of_ends {s : String} (hfirst : ∀ c ∈ s.toList.head?, isBlank c = false)
    (hlast : ∀ c ∈ s.toList.getLast?, isBlank c = false) : trim s = s := by
  have hdrop : ∀ cs : List Char, (∀ c ∈ cs.head?, isBlank c = false) → cs.dropWhile isBlank = cs := by
    intro cs hcs
    cases cs with
    | nil => rfl
    | cons c rest => exact List.dropWhile_cons_of_neg (by simp [hcs c rfl])
  have hleft : trimLeft s.toList = s.toList := hdrop _ hfirst
  have hright : trimRight s.toList = s.toList := by
    rw [trimRight, hdrop _ (by simpa using hlast), List.reverse_reverse]
  rw [trim, hleft, hright, String.ofList_toList]

/-- Trimming leaves a text without blanks as it is. -/
theorem trim_of_no_blank {s : String} (h : ∀ c ∈ s.toList, isBlank c = false) : trim s = s := by
  apply trim_of_ends
  · intro c hc
    exact h c (List.mem_of_mem_head? hc)
  · intro c hc
    exact h c (List.mem_of_mem_getLast? hc)

end Text

/-- Trimming the text of a count once is enough. -/
theorem Count.trim_of_read {limit n : Nat} {s : String} (h : read limit s.toList = .ok n) :
    Text.trim s = s := by
  refine Text.trim_of_no_blank fun c hc => ?_
  rcases chars_of_read h c hc with hdigit | rfl
  · exact Text.not_isBlank_of_isDigit hdigit
  · rfl

/-- No placeholder begins in a count. -/
theorem Count.not_dollar_of_read {limit n : Nat} {s : String} (h : read limit s.toList = .ok n) :
    '$' ∉ s.toList := by
  intro hmem
  rcases chars_of_read h '$' hmem with hdigit | heq
  · exact absurd hdigit (by decide)
  · exact absurd heq (by decide)

end Recast
