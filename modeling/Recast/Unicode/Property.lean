import Recast.Unicode.Letter
import Recast.Unicode.Mark
import Recast.Unicode.Symbol
import Recast.Unicode.Extra
import Recast.Text.Blank

/-!
# Property — properties of characters

Unions of categories under the names of the properties that are used: `isAlphabetic`,
`isNumeric`, `isWord` (the characters of words), `isIdentifierStart`, `isIdentifierPart`,
`isCased` and `isCaseIgnorable`.
-/

namespace Recast
namespace Unicode

/-! ## Unions of categories -/

def letters : List Run :=
  upperLetters ++ lowerLetters ++ titleLetters ++ modifierLetters ++ otherLetters

def marks : List Run :=
  nonspacingMarks ++ spacingMarks ++ enclosingMarks

def numbers : List Run :=
  decimalNumbers ++ letterNumbers ++ otherNumbers

def punctuation : List Run :=
  connectors ++ dashes ++ openings ++ closings ++ initialQuotes ++ finalQuotes ++ otherPunctuation

def symbols : List Run :=
  mathSymbols ++ currencySymbols ++ modifierSymbols ++ otherSymbols

def separators : List Run :=
  spaceSeparators ++ lineSeparators ++ paragraphSeparators

/-- Letters, letter-like numbers and what else is alphabetic. -/
def alphabetic : List Run :=
  letters ++ letterNumbers ++ otherAlphabetic

/-- The characters of words: alphabetic ones, marks, digits, connectors and joiners. -/
def wordCharacters : List Run :=
  alphabetic ++ marks ++ decimalNumbers ++ connectors ++ [⟨0x200C, 0x200D, 1⟩]

def uppercase : List Run :=
  upperLetters ++ otherUppercase

def lowercase : List Run :=
  lowerLetters ++ otherLowercase

def cased : List Run :=
  titleLetters ++ uppercase ++ lowercase

/-- Characters that casing passes over. -/
def caseIgnorable : List Run :=
  nonspacingMarks ++ enclosingMarks ++ formats ++ modifierLetters ++ modifierSymbols ++
    otherCaseIgnorable

def blank : List Run :=
  [⟨0x09, 0x0D, 1⟩, ⟨0x20, 0x20, 1⟩, ⟨0x85, 0x85, 1⟩, ⟨0xA0, 0xA0, 1⟩, ⟨0x1680, 0x1680, 1⟩,
   ⟨0x2000, 0x200A, 1⟩, ⟨0x2028, 0x2029, 1⟩, ⟨0x202F, 0x202F, 1⟩, ⟨0x205F, 0x205F, 1⟩,
   ⟨0x3000, 0x3000, 1⟩]

/-! ## Properties of characters -/

def isAlphabetic (c : Char) : Bool :=
  c.isAlpha || (0x80 ≤ c.toNat && holds alphabetic c.toNat)

def isNumeric (c : Char) : Bool :=
  holds numbers c.toNat

def isWord (c : Char) : Bool :=
  c.isAlphanum || c == '_' || (0x80 ≤ c.toNat && holds wordCharacters c.toNat)

/-- Whether an identifier may start with a character. -/
def isIdentifierStart (c : Char) : Bool :=
  c.isAlpha || (0x80 ≤ c.toNat && !holds notIdentifierStart c.toNat &&
    (holds letters c.toNat || holds letterNumbers c.toNat || holds otherIdentifierStart c.toNat))

/-- Whether an identifier may go on with a character. -/
def isIdentifierPart (c : Char) : Bool :=
  isIdentifierStart c || c.isDigit || c == '_' || (0x80 ≤ c.toNat &&
    (holds nonspacingMarks c.toNat || holds spacingMarks c.toNat ||
      holds decimalNumbers c.toNat || holds connectors c.toNat ||
      holds otherIdentifierPart c.toNat))

def isCased (c : Char) : Bool :=
  holds cased c.toNat

def isCaseIgnorable (c : Char) : Bool :=
  holds caseIgnorable c.toNat

end Unicode
end Recast
