import Recast.Unicode.Property
import Recast.Unicode.Script
import Recast.Unicode.CaseData

/-!
# CharSet — sets of characters as ranges of code points

A set lists its ranges in ascending order without gaps between them.  The module defines the
Boolean operations, the closure under simple case folding, and the sets that have names.

Main statement: `holds_union`, a union holds what one of its parts holds.
-/

namespace Recast
namespace Pattern

/-- A set of code points, as ranges from a first to a last one. -/
structure CharSet where
  ranges : List (Nat × Nat)
  deriving DecidableEq, Repr

namespace CharSet

def maxCode : Nat := 0x10FFFF

def holds (s : CharSet) (n : Nat) : Bool :=
  s.ranges.any fun r => r.1 ≤ n && n ≤ r.2

/-! ## Boolean operations -/

/-- Join ranges that touch; they are given in the order of their starts. -/
def joinRanges : List (Nat × Nat) → List (Nat × Nat)
  | [] => []
  | r :: rest =>
      match joinRanges rest with
      | [] => [r]
      | s :: more => if s.1 ≤ r.2 + 1 then (r.1, max r.2 s.2) :: more else r :: s :: more

/-- The set of some ranges in any order. -/
def ofRanges (rs : List (Nat × Nat)) : CharSet :=
  ⟨joinRanges (rs.mergeSort fun a b => a.1 ≤ b.1)⟩

def range (first last : Nat) : CharSet := ⟨[(first, last)]⟩

def single (c : Char) : CharSet := range c.toNat c.toNat

def empty : CharSet := ⟨[]⟩

def all : CharSet := range 0 maxCode

def union (s t : CharSet) : CharSet :=
  ofRanges (s.ranges ++ t.ranges)

def gaps (start : Nat) : List (Nat × Nat) → List (Nat × Nat)
  | [] => if start ≤ maxCode then [(start, maxCode)] else []
  | r :: rest =>
      if start < r.1 then (start, r.1 - 1) :: gaps (r.2 + 1) rest else gaps (r.2 + 1) rest

def negate (s : CharSet) : CharSet :=
  ⟨gaps 0 s.ranges⟩

def inter (s t : CharSet) : CharSet :=
  (s.negate.union t.negate).negate

/-- What is in the first of two sets but not in the second. -/
def diff (s t : CharSet) : CharSet :=
  s.inter t.negate

def symmDiff (s t : CharSet) : CharSet :=
  (s.diff t).union (t.diff s)

/-! ## Tables -/

def ofRuns (rs : List Unicode.Run) : CharSet :=
  ofRanges (rs.flatMap Unicode.Run.ranges)

def digits : CharSet := ofRuns Unicode.decimalNumbers

def spaces : CharSet := ofRuns Unicode.blank

def words : CharSet := ofRuns Unicode.wordCharacters

def asciiDigits : CharSet := range 0x30 0x39

/-- The ASCII blanks: tab, line feed, vertical tab, form feed, carriage return and space. -/
def asciiSpaces : CharSet := ⟨[(0x09, 0x0D), (0x20, 0x20)]⟩

def asciiWords : CharSet := ⟨[(0x30, 0x39), (0x41, 0x5A), (0x5F, 0x5F), (0x61, 0x7A)]⟩

/-- The classes that are named between `[:` and `:]`. -/
def posix? : String → Option CharSet
  | "alnum" => some ⟨[(0x30, 0x39), (0x41, 0x5A), (0x61, 0x7A)]⟩
  | "alpha" => some ⟨[(0x41, 0x5A), (0x61, 0x7A)]⟩
  | "ascii" => some ⟨[(0x00, 0x7F)]⟩
  | "blank" => some ⟨[(0x09, 0x09), (0x20, 0x20)]⟩
  | "cntrl" => some ⟨[(0x00, 0x1F), (0x7F, 0x7F)]⟩
  | "digit" => some ⟨[(0x30, 0x39)]⟩
  | "graph" => some ⟨[(0x21, 0x7E)]⟩
  | "lower" => some ⟨[(0x61, 0x7A)]⟩
  | "print" => some ⟨[(0x20, 0x7E)]⟩
  | "punct" => some ⟨[(0x21, 0x2F), (0x3A, 0x40), (0x5B, 0x60), (0x7B, 0x7E)]⟩
  | "space" => some ⟨[(0x09, 0x0D), (0x20, 0x20)]⟩
  | "upper" => some ⟨[(0x41, 0x5A)]⟩
  | "word" => some asciiWords
  | "xdigit" => some ⟨[(0x30, 0x39), (0x41, 0x46), (0x61, 0x66)]⟩
  | _ => none

/-! ## Sets with names -/

def assignedRuns : List Unicode.Run :=
  Unicode.letters ++ Unicode.marks ++ Unicode.numbers ++ Unicode.punctuation ++
    Unicode.symbols ++ Unicode.separators ++ Unicode.controls ++ Unicode.formats ++
    Unicode.privateUse ++ [⟨0xD800, 0xDFFF, 1⟩]

/-- The binary properties, by their names in small letters without separators. -/
def property? : String → Option CharSet
  | "any" => some all
  | "ascii" => some (range 0 0x7F)
  | "assigned" => some (ofRuns assignedRuns)
  | "alphabetic" | "alpha" => some (ofRuns Unicode.alphabetic)
  | "uppercase" | "upper" => some (ofRuns Unicode.uppercase)
  | "lowercase" | "lower" => some (ofRuns Unicode.lowercase)
  | "whitespace" | "wspace" | "space" => some spaces
  | "cased" => some (ofRuns Unicode.cased)
  | "caseignorable" | "ci" => some (ofRuns Unicode.caseIgnorable)
  | "joincontrol" | "joinc" => some (range 0x200C 0x200D)
  | "asciihexdigit" | "ahex" => some ⟨[(0x30, 0x39), (0x41, 0x46), (0x61, 0x66)]⟩
  | "hexdigit" | "hex" =>
      some ⟨[(0x30, 0x39), (0x41, 0x46), (0x61, 0x66), (0xFF10, 0xFF19), (0xFF21, 0xFF26),
        (0xFF41, 0xFF46)]⟩
  | _ => none

/-- The general categories, by their names in small letters without separators. -/
def category? : String → Option CharSet
  | "lu" | "uppercaseletter" => some (ofRuns Unicode.upperLetters)
  | "ll" | "lowercaseletter" => some (ofRuns Unicode.lowerLetters)
  | "lt" | "titlecaseletter" => some (ofRuns Unicode.titleLetters)
  | "lc" | "casedletter" =>
      some (ofRuns (Unicode.upperLetters ++ Unicode.lowerLetters ++ Unicode.titleLetters))
  | "lm" | "modifierletter" => some (ofRuns Unicode.modifierLetters)
  | "lo" | "otherletter" => some (ofRuns Unicode.otherLetters)
  | "l" | "letter" => some (ofRuns Unicode.letters)
  | "mn" | "nonspacingmark" => some (ofRuns Unicode.nonspacingMarks)
  | "mc" | "spacingmark" => some (ofRuns Unicode.spacingMarks)
  | "me" | "enclosingmark" => some (ofRuns Unicode.enclosingMarks)
  | "m" | "mark" | "combiningmark" => some (ofRuns Unicode.marks)
  | "nd" | "decimalnumber" | "digit" => some digits
  | "nl" | "letternumber" => some (ofRuns Unicode.letterNumbers)
  | "no" | "othernumber" => some (ofRuns Unicode.otherNumbers)
  | "n" | "number" => some (ofRuns Unicode.numbers)
  | "pc" | "connectorpunctuation" => some (ofRuns Unicode.connectors)
  | "pd" | "dashpunctuation" => some (ofRuns Unicode.dashes)
  | "ps" | "openpunctuation" => some (ofRuns Unicode.openings)
  | "pe" | "closepunctuation" => some (ofRuns Unicode.closings)
  | "pi" | "initialpunctuation" => some (ofRuns Unicode.initialQuotes)
  | "pf" | "finalpunctuation" => some (ofRuns Unicode.finalQuotes)
  | "po" | "otherpunctuation" => some (ofRuns Unicode.otherPunctuation)
  | "p" | "punctuation" | "punct" => some (ofRuns Unicode.punctuation)
  | "sm" | "mathsymbol" => some (ofRuns Unicode.mathSymbols)
  | "sc" | "currencysymbol" => some (ofRuns Unicode.currencySymbols)
  | "sk" | "modifiersymbol" => some (ofRuns Unicode.modifierSymbols)
  | "so" | "othersymbol" => some (ofRuns Unicode.otherSymbols)
  | "s" | "symbol" => some (ofRuns Unicode.symbols)
  | "zs" | "spaceseparator" => some (ofRuns Unicode.spaceSeparators)
  | "zl" | "lineseparator" => some (ofRuns Unicode.lineSeparators)
  | "zp" | "paragraphseparator" => some (ofRuns Unicode.paragraphSeparators)
  | "z" | "separator" => some (ofRuns Unicode.separators)
  | "cc" | "control" | "cntrl" => some (ofRuns Unicode.controls)
  | "cf" | "format" => some (ofRuns Unicode.formats)
  | "co" | "privateuse" => some (ofRuns Unicode.privateUse)
  | "cn" | "unassigned" => some (ofRuns assignedRuns).negate
  | "c" | "other" =>
      some ((ofRuns (Unicode.controls ++ Unicode.formats ++ Unicode.privateUse)).union
        (ofRuns assignedRuns).negate)
  | _ => none

/-- The scripts, by their names in small letters without separators. -/
def script? (name : String) : Option CharSet :=
  let full := (Unicode.scriptCodes.lookup name).getD name
  (Unicode.scripts.lookup full).map ofRanges

/-- A name in small letters without separators and without a leading `is`. -/
def plainName (name : String) : String :=
  let cs := name.toList.map Char.toLower
  let (cs, cut) := match cs with
    | 'i' :: 's' :: rest => (rest, true)
    | _ => (cs, false)
  let plain := String.ofList (cs.filter fun c => c != ' ' && c != '_' && c != '-' && c.toNat < 0x80)
  if cut && plain == "c" then "isc" else plain

def named? (name : String) : Option CharSet :=
  let plain := plainName name
  if plain == "cf" || plain == "sc" || plain == "lc" then category? plain
  else (property? plain).or ((category? plain).or (script? plain))

/-- The set of the characters for which a property has a value. -/
def valued? (property value : String) : Option CharSet :=
  match plainName property with
  | "generalcategory" | "gc" => (property? (plainName value)).or (category? (plainName value))
  | "script" | "sc" | "scriptextensions" | "scx" => script? (plainName value)
  | _ => none

/-! ## Case -/

/-- The pairs of a character and its simple folding. -/
def foldPairs : List (Nat × Nat) :=
  Unicode.foldRuns.flatMap fun r =>
    (List.range ((r.last - r.first) / r.step + 1)).map fun i =>
      (r.first + i * r.step, r.image + i * r.step)

/-- The set together with all characters that fold to the same character as one of its own. -/
def closeCase (s : CharSet) : CharSet :=
  let images := foldPairs.filterMap fun (c, t) => if s.holds c then some (t, t) else none
  let folded := s.union (ofRanges images)
  folded.union (ofRanges (foldPairs.filterMap fun (c, t) =>
    if folded.holds t then some (c, c) else none))

/-- The set together with the other case of its ASCII letters. -/
def closeAsciiCase (s : CharSet) : CharSet :=
  let others := (List.range 26).flatMap fun i =>
    (if s.holds (0x41 + i) then [(0x61 + i, 0x61 + i)] else []) ++
      (if s.holds (0x61 + i) then [(0x41 + i, 0x41 + i)] else [])
  s.union (ofRanges others)

/-! ## Laws -/

/-- Joining ranges keeps what they hold, and where the first of them starts. -/
theorem holds_joinRanges (n : Nat) (rs : List (Nat × Nat)) (h : rs.Pairwise fun a b => a.1 ≤ b.1) :
    (joinRanges rs).any (fun r => r.1 ≤ n && n ≤ r.2) = rs.any (fun r => r.1 ≤ n && n ≤ r.2) ∧
      ∀ s ∈ (joinRanges rs).head?, ∃ r ∈ rs, s.1 = r.1 := by
  induction rs with
  | nil => simp [joinRanges]
  | cons r rest ih =>
      obtain ⟨hr, hrest⟩ := List.pairwise_cons.1 h
      obtain ⟨hany, hhead⟩ := ih hrest
      unfold joinRanges
      cases hj : joinRanges rest with
      | nil =>
          rw [hj] at hany
          simp only [List.any_nil] at hany
          constructor
          · rw [List.any_cons, List.any_cons, ← hany]
            rfl
          · intro s hs
            simp only [List.head?_cons, Option.mem_def, Option.some.injEq] at hs
            exact ⟨r, by simp, by rw [← hs]⟩
      | cons s more =>
          rw [hj] at hany hhead
          obtain ⟨q, hq, hsq⟩ := hhead s (by simp)
          have hle : r.1 ≤ s.1 := hsq ▸ hr q hq
          dsimp only
          constructor
          · rw [List.any_cons, ← hany]
            split
            · -- the two ranges touch, so nothing lies between them
              rename_i ht
              rw [List.any_cons, List.any_cons, ← Bool.or_assoc]
              congr 1
              rw [Bool.eq_iff_iff]
              simp only [Bool.and_eq_true, Bool.or_eq_true, decide_eq_true_eq]
              omega
            · rfl
          · -- joined or not, the first range starts where it did
            intro t ht
            refine ⟨r, List.mem_cons_self, ?_⟩
            split at ht
            · obtain rfl := Option.some.inj ht
              rfl
            · obtain rfl := Option.some.inj ht
              rfl

/-- The set of some ranges holds what is in one of them. -/
theorem holds_ofRanges (rs : List (Nat × Nat)) (n : Nat) :
    (ofRanges rs).holds n = rs.any fun r => r.1 ≤ n && n ≤ r.2 := by
  have hs : (rs.mergeSort fun a b => decide (a.1 ≤ b.1)).Pairwise fun a b => a.1 ≤ b.1 := by
    have htrans : ∀ a b c : Nat × Nat, decide (a.1 ≤ b.1) = true → decide (b.1 ≤ c.1) = true →
        decide (a.1 ≤ c.1) = true := by
      intro a b c
      simp only [decide_eq_true_eq]
      omega
    have htotal : ∀ a b : Nat × Nat, (decide (a.1 ≤ b.1) || decide (b.1 ≤ a.1)) = true := by
      intro a b
      simp only [Bool.or_eq_true, decide_eq_true_eq]
      omega
    simpa using List.pairwise_mergeSort htrans htotal rs
  unfold ofRanges holds
  rw [(holds_joinRanges n _ hs).1]
  exact (List.mergeSort_perm rs _).any_eq

/-- A union holds what is in one of the two sets. -/
theorem holds_union (s t : CharSet) (n : Nat) : (s.union t).holds n = (s.holds n || t.holds n) := by
  rw [union, holds_ofRanges, List.any_append]
  rfl

end CharSet
end Pattern
end Recast
