import Recast.Toml.Moment

/-!
# Toml — the values of configuration texts

A configuration text is a table of values under keys.  Floating-point numbers are kept by their bit
patterns.
-/

namespace Recast

/-- A value of a configuration text. -/
inductive Toml where
  | string (s : String)
  | integer (n : Int)
  /-- A binary64 number, by its bit pattern. -/
  | float (bits : UInt64)
  | boolean (b : Bool)
  | moment (m : Moment)
  | array (items : List Toml)
  | table (entries : List (String × Toml))
  deriving Repr, Inhabited

end Recast
