import Recast.Json.Token
import Recast.Assoc

/-!
# Written — JSON documents as they are written

`Json.Written` keeps what a value forgets: repeated keys, number literals, escapes, and where the
nesting goes deeper than a reader follows.

* `Json.Builder` — the state of building a document from tokens, `Builder.step?`;
* `Json.Written.ofText?` — the document of a text;
* `Json.Written.value?` — the value of a document: of a repeated key the last value counts, at the
  place of the first; a text must consist of characters, a number must be finite;
* `Json.written` — a value written down again;
* `Json.parse?` — the value of a text.
-/

namespace Recast
namespace Json

/-- A JSON document as written. -/
inductive Written where
  | null
  | bool (b : Bool)
  | number (x : Numeral)
  | text (ps : List Piece)
  | array (items : List Written)
  | object (members : List (List Piece × Written))
  /-- An array or object nested too deep to be used; it may only be passed over. -/
  | tooDeep
  deriving Repr, Inhabited

/-- The greatest number of arrays and objects around a used value, itself included. -/
def maxDepth : Nat := 127

/-! ## From tokens to documents -/

/-- An array or object whose end has not been read; its parts are gathered in reverse. -/
inductive Frame where
  | array (items : List Written)
  | object (members : List (List Piece × Written)) (key : List Piece)
  deriving Repr

/-- The state of reading a document. -/
inductive Builder where
  /-- A value must follow, or the end of the array just opened if `closable`. -/
  | value (stack : List Frame) (closable : Bool)
  /-- A key must follow, or the end of the object just opened if `closable`. -/
  | key (stack : List Frame) (members : List (List Piece × Written)) (closable : Bool)
  /-- A colon must follow. -/
  | colon (stack : List Frame) (members : List (List Piece × Written)) (key : List Piece)
  /-- A value has just ended. -/
  | after (stack : List Frame) (v : Written)
  deriving Repr

namespace Builder

/-- End an array or object inside the given frames. -/
def close (stack : List Frame) (v : Written) : Builder :=
  -- the stack holds what is open around the value that ends
  .after stack (if stack.length < maxDepth then v else .tooDeep)

def step? : Builder → Token → Option Builder
  | .value stack _, .null => some (.after stack .null)
  | .value stack _, .bool b => some (.after stack (.bool b))
  | .value stack _, .number x => some (.after stack (.number x))
  | .value stack _, .text ps => some (.after stack (.text ps))
  | .value stack _, .openArray => some (.value (.array [] :: stack) true)
  | .value stack _, .openObject => some (.key stack [] true)
  | .value (.array items :: stack) true, .closeArray => some (close stack (.array items.reverse))
  | .key stack ms _, .text ps => some (.colon stack ms ps)
  | .key stack ms true, .closeObject => some (close stack (.object ms.reverse))
  | .colon stack ms k, .colon => some (.value (.object ms k :: stack) false)
  | .after (.array items :: stack) v, .comma => some (.value (.array (v :: items) :: stack) false)
  | .after (.array items :: stack) v, .closeArray =>
      some (close stack (.array (v :: items).reverse))
  | .after (.object ms k :: stack) v, .comma => some (.key stack ((k, v) :: ms) false)
  | .after (.object ms k :: stack) v, .closeObject =>
      some (close stack (.object ((k, v) :: ms).reverse))
  | _, _ => none

/-- The document read, if it is complete. -/
def finish? : Builder → Option Written
  | .after [] v => some v
  | _ => none

end Builder

namespace Written

def ofTokens? (ts : List Token) : Option Written :=
  (ts.foldlM Builder.step? (.value [] false)).bind Builder.finish?

def ofText? (s : String) : Option Written :=
  (tokens? s.toList).bind ofTokens?

/-! ## From documents to values -/

def decode? (ps : List Piece) : Option String :=
  (Piece.decode? ps).map String.ofList

mutual
def value? : Written → Option Json
  | .null => some .null
  | .bool b => some (.bool b)
  | .number x => x.value?.map .number
  | .text ps => (decode? ps).map .string
  | .array items => (items? items).map .array
  | .object members => (members? members).map fun ms => .object (Assoc.ofList ms)
  | .tooDeep => none

def items? : List Written → Option (List Json)
  | [] => some []
  | w :: rest => do
      let v ← value? w
      let vs ← items? rest
      return v :: vs

/-- The values of members, repeated keys included. -/
def members? : List (List Piece × Written) → Option (List (String × Json))
  | [] => some []
  | m :: rest => do
      let kv ← member? m
      let kvs ← members? rest
      return kv :: kvs

def member? : List Piece × Written → Option (String × Json)
  | (k, w) => do
      let s ← decode? k
      let v ← value? w
      return (s, v)
end

end Written

/-! ## From values to documents -/

mutual
/-- A value written down.  A binary64 number loses its digits: only its sign remains. -/
def written : Json → Written
  | .null => .null
  | .bool b => .bool b
  | .number (.integer n) => .number (.ofInt n)
  | .number (.float bits) => .number ⟨0x8000000000000000 ≤ bits.toNat, ['0'], some ['0'], none⟩
  | .string s => .text (s.toList.map .char)
  | .array items => .array (writtenItems items)
  | .object members => .object (writtenMembers members)

def writtenItems : List Json → List Written
  | [] => []
  | v :: rest => written v :: writtenItems rest

def writtenMembers : List (String × Json) → List (List Piece × Written)
  | [] => []
  | m :: rest => writtenMember m :: writtenMembers rest

def writtenMember : String × Json → List Piece × Written
  | (k, v) => (k.toList.map .char, written v)
end

def parse? (s : String) : Option Json :=
  (Written.ofText? s).bind Written.value?

end Json
end Recast
