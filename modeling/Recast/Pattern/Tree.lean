import Recast.Pattern.CharSet

/-!
# Tree — regular expressions

A `Pattern.Tree` is a regular expression whose character classes are sets.  Alternatives and
repetitions are ordered: of several ways to match, the first one in this order counts.
-/

namespace Recast
namespace Pattern

/-- A condition on the two characters around a position. -/
inductive Assertion where
  | textStart
  | textEnd
  | lineStart
  | lineEnd
  /-- As `lineStart` and `lineEnd`, where a carriage return also ends a line. -/
  | anyLineStart
  | anyLineEnd
  /-- Exactly one neighbour belongs to words, of all scripts or of ASCII only. -/
  | boundary (ascii : Bool)
  | notBoundary (ascii : Bool)
  | wordStart (ascii : Bool)
  | wordEnd (ascii : Bool)
  | notAfterWord (ascii : Bool)
  | notBeforeWord (ascii : Bool)
  deriving DecidableEq, Repr

/-- A regular expression. -/
inductive Tree where
  | empty
  | set (s : CharSet)
  | assert (a : Assertion)
  | capture (index : Nat) (t : Tree)
  | seq (ts : List Tree)
  | alt (ts : List Tree)
  | rep (least : Nat) (most : Option Nat) (greedy : Bool) (t : Tree)
  deriving Repr, Inhabited

namespace Assertion

/-- Whether a neighbour belongs to words. -/
def inWord (ascii : Bool) : Option Char → Bool
  | none => false
  | some c => if ascii then c.isAlphanum || c = '_' else Unicode.isWord c

/-- Whether a condition holds between two neighbours, either of which may be missing. -/
def holds (a : Assertion) (before after : Option Char) : Bool :=
  match a with
  | .textStart => before.isNone
  | .textEnd => after.isNone
  | .lineStart => before.isNone || before == some '\n'
  | .lineEnd => after.isNone || after == some '\n'
  | .anyLineStart =>
      before.isNone || before == some '\n' || (before == some '\r' && after != some '\n')
  | .anyLineEnd =>
      after.isNone || after == some '\r' || (after == some '\n' && before != some '\r')
  | .boundary ascii => inWord ascii before != inWord ascii after
  | .notBoundary ascii => inWord ascii before == inWord ascii after
  | .wordStart ascii => !inWord ascii before && inWord ascii after
  | .wordEnd ascii => inWord ascii before && !inWord ascii after
  | .notAfterWord ascii => !inWord ascii before
  | .notBeforeWord ascii => !inWord ascii after

end Assertion

namespace Tree

mutual
/-- Whether every match takes at least one character. -/
def isSolid : Tree → Bool
  | .empty => false
  | .set _ => true
  | .assert _ => false
  | .capture _ t => isSolid t
  | .seq ts => anySolid ts
  | .alt ts => !ts.isEmpty && allSolid ts
  | .rep least _ _ t => least != 0 && isSolid t

def anySolid : List Tree → Bool
  | [] => false
  | t :: rest => isSolid t || anySolid rest

def allSolid : List Tree → Bool
  | [] => true
  | t :: rest => isSolid t && allSolid rest
end

mutual
def depth : Tree → Nat
  | .empty | .set _ | .assert _ => 0
  | .capture _ t => depth t + 1
  | .seq ts => depthAll ts + 1
  | .alt ts => depthAll ts + 1
  | .rep _ _ _ t => depth t + 1

def depthAll : List Tree → Nat
  | [] => 0
  | t :: rest => max (depth t) (depthAll rest)
end

mutual
/-- The size of a tree, counted in ranges of characters. -/
def weight : Tree → Nat
  | .empty => 1
  | .set s => max 1 s.ranges.length
  | .assert _ => 1
  | .capture _ t => weight t + 1
  | .seq ts => weightAll ts
  | .alt ts => weightAll ts + 1
  | .rep least most _ t => (max 1 (max least (most.getD 0))) * weight t + 1

def weightAll : List Tree → Nat
  | [] => 0
  | t :: rest => weight t + weightAll rest
end

/-- A sequence of trees; a single one stands for itself. -/
def ofSeq : List Tree → Tree
  | [] => .empty
  | [t] => t
  | ts => .seq ts

/-- A choice between trees; a single one stands for itself. -/
def ofAlt : List Tree → Tree
  | [t] => t
  | ts => .alt ts

end Tree
end Pattern
end Recast
