import Recast.Json.Written

/-!
# Shape — records read from JSON documents

A record with named fields may be written as an object, its members in any order and unknown ones
passed over, or as an array that lists its fields in order.  A field that is known must not be
repeated.

* `Json.Fields` — the fields found in a document;
* `Fields.required`, `Fields.defaulted` — what a missing field means.
-/

namespace Recast
namespace Json

/-- The fields of a record; `listed` says that they came as an array. -/
structure Fields where
  listed : Bool
  found : List (String × Written)

namespace Written

def keys? : List (List Piece × Written) → Option (List (String × Written))
  | [] => some []
  | (k, w) :: rest => do
      let s ← decode? k
      let kws ← keys? rest
      return (s, w) :: kws

def fields? (names : List String) : Written → Option Fields
  | .object members => do
      let kws ← keys? members
      let known := kws.filter fun kw => names.contains kw.1
      if (known.map Prod.fst).Nodup then some ⟨false, known⟩ else none
  | .array items => if items.length ≤ names.length then some ⟨true, names.zip items⟩ else none
  | _ => none

def string? : Written → Option String
  | .text ps => decode? ps
  | _ => none

/-- The word of a closed choice: a text, or an object whose only key is the word, keyed to null. -/
def choice? : Written → Option String
  | .object [(k, .null)] => decode? k
  | w => w.string?

def bool? : Written → Option Bool
  | .bool b => some b
  | _ => none

def list? (read? : Written → Option α) : Written → Option (List α)
  | .array items => items.mapM read?
  | _ => none

/-- An object of which every value can be read; repeated keys are kept. -/
def entries? (read? : Written → Option α) : Written → Option (List (String × α))
  | .object members => do
      let kws ← keys? members
      kws.mapM fun (k, w) => (read? w).map (k, ·)
  | _ => none

/-- Null, or a document that can be read. -/
def nullable? (read? : Written → Option α) : Written → Option (Option α)
  | .null => some none
  | w => (read? w).map some

end Written

namespace Fields

def required (f : Fields) (name : String) (read? : Written → Option α) : Option α :=
  (f.found.lookup name).bind read?

/-- A field that stands for a given value if it is missing. -/
def defaulted (f : Fields) (name : String) (missing : α) (read? : Written → Option α) : Option α :=
  match f.found.lookup name with
  | none => some missing
  | some w => read? w

end Fields
end Json
end Recast
