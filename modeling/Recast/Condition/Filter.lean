import Recast.Condition.Reader
import Recast.Job.Component

/-!
# Filter — filters that are ready to use

The text of a filter is a regular expression, which has to match somewhere in the value, or a
condition.
-/

namespace Recast

/-- A filter that is ready to use. -/
inductive ValueFilter where
  | pattern (p : Pattern)
  | condition (c : Condition)

namespace ValueFilter

/-- Read the text of a filter, or report why it cannot be read. -/
def ofFilter (f : Filter) : Except String ValueFilter :=
  match f.dialect with
  | .regex =>
      match Pattern.ofText? f.expression with
      | some p => .ok (.pattern p)
      | none => .error "<regex>"
  | .boolean => (Condition.ofText f.expression).map .condition

def passes (v : ValueFilter) (value : String) : Bool :=
  match v with
  | .pattern p => p.matches value
  | .condition c => c.holds value

end ValueFilter
end Recast
