import Recast.Assoc
import Recast.Toml.Value

/-!
# Shape — records read from configuration values

A record with named fields may be written as a table, in which unknown keys are passed over, or as an
array that lists its fields in order.  Either may lack fields.
-/

namespace Recast
namespace Toml

/-- The fields found in a value, of those with the given names. -/
def fields? (names : List String) : Toml → Option (List (String × Toml))
  | .table es => some es
  | .array items => if items.length ≤ names.length then some (names.zip items) else none
  | _ => none

def string? : Toml → Option String
  | .string s => some s
  | .moment m => some m.text
  | _ => none

def char? (v : Toml) : Option Char :=
  match v.string?.map String.toList with
  | some [c] => some c
  | _ => none

def bool? : Toml → Option Bool
  | .boolean b => some b
  | _ => none

/-- A number that is not negative. -/
def count? : Toml → Option Nat
  | .integer n => if 0 ≤ n then some n.toNat else none
  | _ => none

def list? (read? : Toml → Option α) : Toml → Option (List α)
  | .array items => items.mapM read?
  | _ => none

def required (fs : List (String × Toml)) (name : String) (read? : Toml → Option α) : Option α :=
  (Assoc.get? name fs).bind read?

/-- A field that stands for a given value if it is missing. -/
def defaulted (fs : List (String × Toml)) (name : String) (missing : α)
    (read? : Toml → Option α) : Option α :=
  match Assoc.get? name fs with
  | some v => read? v
  | none => some missing

/-- A field that may be missing, for which there may be a value nevertheless. -/
def optional (fs : List (String × Toml)) (name : String) (missing : Option α)
    (read? : Toml → Option α) : Option (Option α) :=
  defaulted fs name missing fun v => (read? v).map some

end Toml
end Recast
