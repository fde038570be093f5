import Recast.Pattern.Program
import Recast.Pattern.Reader

/-!
# Matcher — regular expressions at work

All ways to match are followed at once, in the order in which they count, from character to
character; of two ways that reach the same instruction only the first one is followed.  So a search
takes time in proportion to the text.

* `Pattern.ofText?` — an expression that is ready to use;
* `Pattern.matches` — whether it matches somewhere in a text;
* `Pattern.find?` — the first match with the positions of its groups;
* `Pattern.findAll` — all matches that do not overlap.

A position is a number of characters from the start of the text.
-/

namespace Recast

/-- A regular expression that is ready to use. -/
structure Pattern where
  text : String
  program : Pattern.Program
  names : List (String × Nat)

namespace Pattern

/-- The positions noted so far, one or none for each slot. -/
abbrev Slots := Array (Option Nat)

/-- A way to match that is to be followed: an instruction and what has been noted. -/
structure Thread where
  at_ : Nat
  slots : Slots

/-- An expression with its text, made ready to use. -/
def ofExpression (s : String) (e : Expression) : Pattern :=
  ⟨s, .ofTree e.tree e.groups, e.names⟩

def ofText? (s : String) : Option Pattern :=
  (read? s).map (ofExpression s)

/-! ## Following threads -/

/-- The instructions met at a position, and the threads that wait there, in reverse. -/
structure Front where
  met : Array Bool
  waiting : List Thread

/-- A position: the characters around it and its number. -/
structure Place where
  before : Option Char
  after : Option Char
  index : Nat

/-- Follow threads up to the instructions that take a character or accept.  Each instruction is
met once and leads to two more at most, which bounds the number of steps. -/
def follow (p : Program) (here : Place) : Nat → List Thread → Front → Front
  | 0, _, x => x
  | _, [], x => x
  | n + 1, t :: rest, x =>
      -- an earlier thread has been here, and it counts more
      if x.met.getD t.at_ true then follow p here n rest x
      else
        let x := { x with met := x.met.setIfInBounds t.at_ true }
        match p.code.getD t.at_ .accept with
        | .take .. | .accept => follow p here n rest { x with waiting := t :: x.waiting }
        | .check a next =>
            if a.holds here.before here.after then
              follow p here n ({ t with at_ := next } :: rest) x
            else follow p here n rest x
        | .note slot next =>
            follow p here n
              (⟨next, t.slots.setIfInBounds slot (some here.index)⟩ :: rest) x
        | .split first second =>
            follow p here n ({ t with at_ := first } :: { t with at_ := second } :: rest) x

/-- The threads that wait at a position, in order, when some threads arrive there. -/
def arrive (p : Program) (here : Place) (arriving : List Thread) : List Thread :=
  let bound := 3 * p.code.size + arriving.length + 1
  (follow p here bound arriving ⟨Array.replicate p.code.size false, []⟩).waiting.reverse

/-- Let waiting threads take a character; a thread that accepts cuts off those behind it. -/
def advance (p : Program) (c : Option Char) : List Thread → List Thread × Option Slots
  | [] => ([], none)
  | t :: rest =>
      match p.code.getD t.at_ .accept with
      -- the threads behind count less than this match
      | .accept => ([], some t.slots)
      | .take s next =>
          let (ts, found) := advance p c rest
          match c with
          | some c => if s.holds c.toNat then ({ t with at_ := next } :: ts, found) else (ts, found)
          | none => (ts, found)
      | _ => advance p c rest

/-- Search on from a position with the threads that arrive there.  As long as nothing has been
found, a new thread starts at each position, behind all others. -/
def searchFrom (p : Program) (before : Option Char) (index : Nat) (arriving : List Thread)
    (found : Option Slots) (cs : List Char) : Option Slots :=
  let fresh := if found.isNone then [⟨p.start, Array.replicate p.slots none⟩] else []
  let waiting := arrive p ⟨before, cs.head?, index⟩ (arriving ++ fresh)
  let (next, better) := advance p cs.head? waiting
  let found := better.or found
  match cs with
  | [] => found
  | c :: rest =>
      -- nothing that is still on its way could take the place of the match
      if next.isEmpty && found.isSome then found
      else searchFrom p (some c) (index + 1) next found rest

/-! ## Searching texts -/

/-- The first match at or behind a position of which the characters before and after are given. -/
def search (p : Pattern) (before : Option Char) (index : Nat) (cs : List Char) : Option Slots :=
  searchFrom p.program before index [] none cs

def find? (p : Pattern) (s : String) : Option Slots :=
  p.search none 0 s.toList

def «matches» (p : Pattern) (s : String) : Bool :=
  (p.find? s).isSome

/-- The start and the end of a group, if it took part in a match. -/
def group? (slots : Slots) (i : Nat) : Option (Nat × Nat) :=
  match slots.getD (2 * i) none, slots.getD (2 * i + 1) none with
  | some a, some b => some (a, b)
  | _, _ => none

/-- Pass over a number of characters; the result also says which one was the last of them. -/
def skipTo (before : Option Char) : Nat → List Char → Option Char × List Char
  | 0, cs => (before, cs)
  | _, [] => (before, [])
  | n + 1, c :: rest => skipTo (some c) n rest

theorem skipTo_length_le (before : Option Char) (n : Nat) (cs : List Char) :
    (skipTo before n cs).2.length ≤ cs.length := by
  induction n generalizing before cs with
  | zero => exact Nat.le_refl _
  | succ n ih =>
      cases cs with
      | nil => exact Nat.le_refl _
      | cons c rest => exact Nat.le_succ_of_le (ih (some c) rest)

/-- Passing over one character or more leaves less than there was. -/
theorem skipTo_length_lt (before : Option Char) {n : Nat} (h : 0 < n) {c : Char}
    {rest : List Char} : (skipTo before n (c :: rest)).2.length < rest.length + 1 := by
  cases n with
  | zero => exact absurd h (Nat.lt_irrefl 0)
  | succ n => exact Nat.lt_succ_of_le (skipTo_length_le (some c) n rest)

/-- All matches behind a position, from left to right.  A match without characters does not count
where the match before it has ended, which `fresh` denies for the position itself. -/
def findFrom (p : Pattern) (before : Option Char) (index : Nat) (fresh : Bool) (cs : List Char) :
    List Slots :=
  match p.search before index cs with
  | none => []
  | some m =>
      let stop := ((group? m 0).getD (index, index)).2
      match _hcs : cs with
      | [] => if fresh then [m] else []
      | c :: rest =>
          if _h : index < stop then
            let passed := skipTo before (stop - index) (c :: rest)
            m :: findFrom p passed.1 stop false passed.2
          else
            (if fresh then [m] else []) ++ findFrom p (some c) (index + 1) true rest
termination_by cs.length
decreasing_by
  · simp only [List.length_cons]
    have hpos : 0 < stop - index := by omega
    exact skipTo_length_lt before hpos
  · simp

/-- All matches in a text that do not overlap, from left to right. -/
def findAll (p : Pattern) (s : String) : List Slots :=
  p.findFrom none 0 true s.toList

end Pattern
end Recast
