import Recast.Text.Parts

/-!
# AttributePath — the predicates from a record down to a value

The text of a path joins its attributes with the record separator character.  The empty text is
the empty path.  Main statement: `text_ofText`, the text of a path read from a text is that text.
-/

namespace Recast

/-- A list of predicates leading from a record to a value. -/
structure AttributePath where
  attributes : List String
  deriving DecidableEq, Repr, Inhabited

namespace AttributePath

def separator : Char := '\x1e'

def empty : AttributePath := ⟨[]⟩

def child (p : AttributePath) (predicate : String) : AttributePath :=
  ⟨p.attributes ++ [predicate]⟩

def parent (p : AttributePath) : AttributePath :=
  ⟨p.attributes.dropLast⟩

def last? (p : AttributePath) : Option String :=
  p.attributes.getLast?

/-- The attributes joined by the separator. -/
def text (p : AttributePath) : String :=
  String.ofList (Text.join separator (p.attributes.map String.toList))

def ofText (s : String) : AttributePath :=
  if s = "" then empty else ⟨Text.parts separator s⟩

def order (p q : AttributePath) : Ordering :=
  Text.compareAll p.attributes q.attributes

/-- The path of a text is written as this text, whatever it is. -/
theorem text_ofText (s : String) : (ofText s).text = s := by
  unfold ofText
  by_cases h : s = ""
  · rw [if_pos h, h]
    rfl
  · rw [if_neg h]
    simp [text, Text.parts, List.map_map, Function.comp_def, Text.join_split]

end AttributePath
end Recast
