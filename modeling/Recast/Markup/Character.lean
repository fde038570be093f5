/-!
# Character — the character classes of XML

The classes are those of the XML recommendation: which characters may stand in a document at all,
which are blank, and which make up names.
-/

namespace Recast
namespace Markup

def isChar (c : Char) : Bool :=
  if c.toNat < 0x20 then c = '\t' || c = '\n' || c = '\r'
  else c.toNat != 0xFFFE && c.toNat != 0xFFFF

def isBlank (c : Char) : Bool :=
  c = ' ' || c = '\t' || c = '\n' || c = '\r'

def startRanges : List (Nat × Nat) :=
  [(0xC0, 0xD6), (0xD8, 0xF6), (0xF8, 0x2FF), (0x370, 0x37D), (0x37F, 0x1FFF), (0x200C, 0x200D),
   (0x2070, 0x218F), (0x2C00, 0x2FEF), (0x3001, 0xD7FF), (0xF900, 0xFDCF), (0xFDF0, 0xFFFD),
   (0x10000, 0xEFFFF)]

/-- The further characters beyond ASCII that a name may hold. -/
def partRanges : List (Nat × Nat) :=
  [(0xB7, 0xB7), (0x300, 0x36F), (0x203F, 0x2040)]

/-- Whether a code point lies in one of some ranges. -/
def inRanges (n : Nat) (rs : List (Nat × Nat)) : Bool :=
  rs.any fun r => r.1 ≤ n && n ≤ r.2

def isNameStart (c : Char) : Bool :=
  c.isAlpha || c = ':' || c = '_' || inRanges c.toNat startRanges

def isNamePart (c : Char) : Bool :=
  isNameStart c || c.isDigit || c = '-' || c = '.' || inRanges c.toNat partRanges

def skipBlank (cs : List Char) : List Char :=
  cs.dropWhile isBlank

end Markup
end Recast
