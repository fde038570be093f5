import Recast.Pattern.Tree

/-!
# Program — regular expressions as instructions

A program is an array of instructions that refer to each other by index.  `Program.ofTree` builds
it from the end: each part is built for the instruction that comes after it.  The order of the two
ways of a `split` says which one counts first.
-/

namespace Recast
namespace Pattern

/-- One instruction. -/
inductive Instruction where
  /-- Take one character of a set. -/
  | take (s : CharSet) (next : Nat)
  /-- Go on if a condition holds. -/
  | check (a : Assertion) (next : Nat)
  /-- Note the position in a slot. -/
  | note (slot : Nat) (next : Nat)
  /-- Go two ways, the first one first. -/
  | split (first second : Nat)
  /-- The expression has matched. -/
  | accept
  deriving Repr, Inhabited

structure Program where
  code : Array Instruction
  start : Nat
  /-- The number of slots, two for each group. -/
  slots : Nat

namespace Program

def emit (code : Array Instruction) (i : Instruction) : Array Instruction × Nat :=
  (code.push i, code.size)

/-- A choice in which greed says which way is first. -/
def choice (greedy : Bool) (more less : Nat) : Instruction :=
  if greedy then .split more less else .split less more

/-- Build a part a number of times in a row. -/
def times (build : Array Instruction → Nat → Array Instruction × Nat) :
    Nat → Array Instruction → Nat → Array Instruction × Nat
  | 0, code, next => (code, next)
  | n + 1, code, next =>
      let (code, entry) := build code next
      times build n code entry

/-- Build a part that may be left out, a number of times, each time inside the one before. -/
def options (build : Array Instruction → Nat → Array Instruction × Nat) (greedy : Bool)
    (exit : Nat) : Nat → Array Instruction → Array Instruction × Nat
  | 0, code => (code, exit)
  | n + 1, code =>
      let (code, inner) := options build greedy exit n code
      let (code, entry) := build code inner
      emit code (choice greedy entry exit)

/-- Build a part that is repeated once or more: the index of its first instruction and that of the
choice to repeat it. -/
def loop (build : Array Instruction → Nat → Array Instruction × Nat) (greedy : Bool)
    (code : Array Instruction) (next : Nat) : Array Instruction × Nat × Nat :=
  -- the place of the choice is needed inside the part, before both of its ways are known
  let (code, again) := emit code .accept
  let (code, entry) := build code again
  (code.setIfInBounds again (choice greedy entry next), entry, again)

mutual
/-- Build a tree in front of the instruction `next`. -/
def build : Tree → Array Instruction → Nat → Array Instruction × Nat
  | .empty, code, next => (code, next)
  | .set s, code, next => emit code (.take s next)
  | .assert a, code, next => emit code (.check a next)
  | .capture index t, code, next =>
      let (code, last) := emit code (.note (2 * index + 1) next)
      let (code, entry) := build t code last
      emit code (.note (2 * index) entry)
  | .seq ts, code, next => buildSeq ts code next
  | .alt ts, code, next => buildAlt ts code next
  | .rep least most greedy t, code, next =>
      match most with
      | some n =>
          let (code, entry) := options (build t) greedy next (n - least) code
          times (build t) least code entry
      | none =>
          if least = 0 then
            let (code, entry, again) := loop (build t) greedy code next
            -- a part that may take nothing needs a choice of its own in front of the loop
            if t.isSolid then (code, again) else emit code (choice greedy entry next)
          else
            let (code, entry, _) := loop (build t) greedy code next
            times (build t) (least - 1) code entry

def buildSeq : List Tree → Array Instruction → Nat → Array Instruction × Nat
  | [], code, next => (code, next)
  | t :: rest, code, next =>
      let (code, entry) := buildSeq rest code next
      build t code entry

def buildAlt : List Tree → Array Instruction → Nat → Array Instruction × Nat
  | [], code, _ => emit code (.take .empty 0)
  | [t], code, next => build t code next
  | t :: rest, code, next =>
      let (code, second) := buildAlt rest code next
      let (code, first) := build t code next
      emit code (.split first second)
end

def ofTree (t : Tree) (groups : Nat) : Program :=
  let (code, final) := emit #[] .accept
  let (code, start) := build (.capture 0 t) code final
  ⟨code, start, 2 * (groups + 1)⟩

end Program
end Pattern
end Recast
