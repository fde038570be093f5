import Recast.Graph.AttributePath

/-!
# PathText — paths told by their texts

A text is the text of the path that is read from it.  The other way round, a path is read back from
its text exactly if no attribute has the separator in it and an empty attribute does not stand alone:
`AttributePath.text_faithful`.  So these paths have texts of their own.

* `AttributePath.Legible` — the paths that are read back.
-/

namespace Recast
namespace AttributePath

/-! ## Paths that are read back -/

/-- No attribute of a path has the separator in it, and an empty attribute does not stand alone. -/
structure Legible (p : AttributePath) : Prop where
  unseparated : ∀ a ∈ p.attributes, separator ∉ a.toList
  notLoneEmpty : p ≠ ⟨[""]⟩

variable {p : AttributePath}

/-- Only the path without attributes and the one with a single empty attribute have an empty text.
-/
theorem text_eq_empty_iff : p.text = "" ↔ p = empty ∨ p = ⟨[""]⟩ := by
  obtain ⟨attributes⟩ := p
  match attributes with
  | [] => simp [text, empty, Text.join]
  | [a] => simp [text, empty, Text.join]
  | a :: b :: rest => simp [text, empty, Text.join]

/-- A path that is legible is read back from its text. -/
theorem ofText_text (h : p.Legible) : ofText p.text = p := by
  unfold ofText
  by_cases hempty : p.text = ""
  · rw [if_pos hempty]
    exact ((text_eq_empty_iff.1 hempty).resolve_right h.notLoneEmpty).symm
  · rw [if_neg hempty]
    have hne : p.attributes.map String.toList ≠ [] := by
      intro hnil
      exact hempty (text_eq_empty_iff.2 (.inl (congrArg mk (List.map_eq_nil_iff.1 hnil))))
    have hparts : ∀ cs ∈ p.attributes.map String.toList, separator ∉ cs :=
      List.forall_mem_map.2 h.unseparated
    calc (⟨Text.parts separator p.text⟩ : AttributePath)
        = ⟨(p.attributes.map String.toList).map String.ofList⟩ := by
          rw [Text.parts, text, String.toList_ofList, Text.split_join hne hparts]
      _ = p := by simp [List.map_map, Function.comp_def]

/-- Whatever is read from a text is legible. -/
theorem legible_ofText (s : String) : (ofText s).Legible where
  unseparated := by
    intro a ha
    unfold ofText at ha
    split at ha
    · exact absurd ha List.not_mem_nil
    · obtain ⟨cs, hcs, rfl⟩ := List.mem_map.1 ha
      rw [String.toList_ofList]
      exact (Text.not_mem_of_mem_split hcs).1
  notLoneEmpty := by
    intro hlone
    -- the text of the lone empty attribute is empty, and the path of the empty text is another one
    have hs : s = "" := by rw [← text_ofText s, hlone]; rfl
    rw [hs] at hlone
    exact absurd (congrArg attributes hlone) (by decide)

/-- Only legible paths are read back. -/
theorem ofText_text_iff : ofText p.text = p ↔ p.Legible :=
  ⟨fun h => h ▸ legible_ofText p.text, ofText_text⟩

/-- The text of a path read from a text is this text.  A path read from its text is this path exactly
if none of its attributes has the separator in it and it is not the lone empty attribute; of such
paths, those that have equal texts are equal. -/
theorem text_faithful :
    (∀ s, (ofText s).text = s) ∧ (∀ p, ofText p.text = p ↔ p.Legible) ∧
      ∀ p q : AttributePath, p.Legible → q.Legible → p.text = q.text → p = q := by
  refine ⟨text_ofText, fun p => ofText_text_iff, ?_⟩
  intro p q hp hq htext
  calc p = ofText p.text := (ofText_text hp).symm
    _ = ofText q.text := by rw [htext]
    _ = q := ofText_text hq

/-- Empty attributes at both ends of a longer path are read back. -/
theorem text_faithful_open_ended :
    Legible ⟨["", "http://a/title", ""]⟩ ∧ (ofText "\x1ehttp://a/title\x1e").Legible ∧
      text ⟨["", "http://a/title", ""]⟩ = (ofText "\x1ehttp://a/title\x1e").text ∧
      ⟨["", "http://a/title", ""]⟩ = ofText "\x1ehttp://a/title\x1e" := by
  have hlegible : Legible ⟨["", "http://a/title", ""]⟩ := ⟨by decide, by decide⟩
  have htext : text ⟨["", "http://a/title", ""]⟩ = (ofText "\x1ehttp://a/title\x1e").text := by
    decide
  have hread : (ofText "\x1ehttp://a/title\x1e").Legible := legible_ofText _
  exact ⟨hlegible, hread, htext, text_faithful.2.2 _ _ hlegible hread htext⟩

end AttributePath
end Recast
