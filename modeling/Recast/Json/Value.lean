/-!
# Json — the values of JSON documents

An object is a list of members in document order.  Whole numbers are kept exactly; all other
numbers are kept by the bit pattern of a binary64 number, so that equality of values is decidable.
-/

namespace Recast

inductive Number where
  /-- A whole number. -/
  | integer (n : Int)
  /-- A binary64 number, by its bit pattern. -/
  | float (bits : UInt64)
  deriving DecidableEq, Repr

/-- A JSON value. -/
inductive Json where
  | null
  | bool (b : Bool)
  | number (n : Number)
  | string (s : String)
  | array (items : List Json)
  | object (members : List (String × Json))
  deriving Repr, Inhabited

namespace Json

/-! ## Decidable equality -/

mutual
def decEq : (v w : Json) → Decidable (v = w)
  | .null, .null => isTrue rfl
  | .bool a, .bool b => decidable_of_iff (a = b) (by simp)
  | .number a, .number b => decidable_of_iff (a = b) (by simp)
  | .string a, .string b => decidable_of_iff (a = b) (by simp)
  | .array as, .array bs =>
      have := decEqItems as bs
      decidable_of_iff (as = bs) (by simp)
  | .object as, .object bs =>
      have := decEqMembers as bs
      decidable_of_iff (as = bs) (by simp)
  | .null, .bool _ | .null, .number _ | .null, .string _ | .null, .array _ | .null, .object _
  | .bool _, .null | .bool _, .number _ | .bool _, .string _ | .bool _, .array _
  | .bool _, .object _ | .number _, .null | .number _, .bool _ | .number _, .string _
  | .number _, .array _ | .number _, .object _ | .string _, .null | .string _, .bool _
  | .string _, .number _ | .string _, .array _ | .string _, .object _ | .array _, .null
  | .array _, .bool _ | .array _, .number _ | .array _, .string _ | .array _, .object _
  | .object _, .null | .object _, .bool _ | .object _, .number _ | .object _, .string _
  | .object _, .array _ => isFalse (by simp)

def decEqItems : (as bs : List Json) → Decidable (as = bs)
  | [], [] => isTrue rfl
  | a :: as, b :: bs =>
      have := decEq a b
      have := decEqItems as bs
      decidable_of_iff (a = b ∧ as = bs) (by simp)
  | [], _ :: _ | _ :: _, [] => isFalse (by simp)

def decEqMembers : (as bs : List (String × Json)) → Decidable (as = bs)
  | [], [] => isTrue rfl
  | a :: as, b :: bs =>
      have := decEqMember a b
      have := decEqMembers as bs
      decidable_of_iff (a = b ∧ as = bs) (by simp)
  | [], _ :: _ | _ :: _, [] => isFalse (by simp)

def decEqMember : (a b : String × Json) → Decidable (a = b)
  | (k, v), (l, w) =>
      have := decEq v w
      decidable_of_iff (k = l ∧ v = w) (by simp)
end

instance : DecidableEq Json := decEq

/-! ## Access -/

def asArray? : Json → Option (List Json)
  | .array items => some items
  | _ => none

def asObject? : Json → Option (List (String × Json))
  | .object members => some members
  | _ => none

def asString? : Json → Option String
  | .string s => some s
  | _ => none

def ofStrings (ss : List String) : Json :=
  .array (ss.map .string)

/-- A string, or null for a missing one. -/
def ofString? : Option String → Json
  | some s => .string s
  | none => .null

end Json
end Recast
