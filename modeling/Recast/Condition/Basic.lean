import Recast.Pattern.Matcher

/-!
# Condition — conditions on values

A condition compares the value at hand with a text or a regular expression, or asks whether it is
empty; conditions are combined by negation, conjunction and disjunction.
-/

namespace Recast

inductive Condition where
  | empty
  | equals (s : String)
  | differs (s : String)
  | «matches» (p : Pattern)
  | contains (s : String)
  | not (c : Condition)
  | and (a b : Condition)
  | or (a b : Condition)

namespace Condition

/-- Whether a list of characters occurs inside another one. -/
def occursIn (needle : List Char) : List Char → Bool
  | [] => needle.isEmpty
  | c :: rest => needle.isPrefixOf (c :: rest) || occursIn needle rest

def holds (value : String) : Condition → Bool
  | .empty => value == ""
  | .equals s => value == s
  | .differs s => value != s
  | .matches p => p.matches value
  | .contains s => occursIn s.toList value.toList
  | .not c => !holds value c
  | .and a b => holds value a && holds value b
  | .or a b => holds value a || holds value b

end Condition
end Recast
