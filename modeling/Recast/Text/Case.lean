import Recast.Unicode.Property
import Recast.Unicode.CaseData

/-!
# Case — texts in capitals and in small letters

Each character is replaced by its full mapping, which may be several characters.  A capital sigma
at the end of a word becomes a final sigma.
-/

namespace Recast
namespace Text

def charOf (n : Nat) : Char := Char.ofNat n

def upperChar (c : Char) : List Char :=
  match Unicode.upperTexts.lookup c.toNat with
  | some ns => ns.map charOf
  | none => [((Unicode.shift? Unicode.upperRuns c.toNat).map charOf).getD c]

def lowerChar (c : Char) : List Char :=
  match Unicode.lowerTexts.lookup c.toNat with
  | some ns => ns.map charOf
  | none => [((Unicode.shift? Unicode.lowerRuns c.toNat).map charOf).getD c]

def upper (s : String) : String :=
  String.ofList (s.toList.flatMap upperChar)

/-- Whether the first character that casing does not pass over has case. -/
def meetsCased (cs : List Char) : Bool :=
  match cs.dropWhile Unicode.isCaseIgnorable with
  | [] => false
  | c :: _ => Unicode.isCased c

/-- Small letters behind characters that are given in reverse. -/
def lowerBehind (before : List Char) : List Char → List Char
  | [] => []
  | c :: rest =>
      (if c = 'Σ' then [if meetsCased before && !meetsCased rest then 'ς' else 'σ']
        else lowerChar c) ++ lowerBehind (c :: before) rest

def lower (s : String) : String :=
  String.ofList (lowerBehind [] s.toList)

end Text
end Recast
