import Recast.Condition.Reader

/-!
# Grammar — what conditions are made of

A condition is a list of signs and strings.  `Derives` is its grammar, in four ranks, with the
condition that each list stands for:

```
or     ::= and ("||" and)*
and    ::= unary ("&&" unary)*
unary  ::= "!"* atom
atom   ::= "empty" | "value" ("==" | "!=" | "=~" | "contains") string | "(" or ")"
```

The reader takes such a list from left to right, one `Move` after the other, and keeps what it has
read in a `State`.  The main statement is `derives_iff`: the lists it can take to their end are those
of the grammar, and it ends with the condition that the grammar gives them.
-/

namespace Recast
namespace Condition

/-! ## Signs -/

inductive Sign where
  | empty
  | value
  | contains
  | equals
  | differs
  | fits
  | not
  | and
  | or
  | opening
  | closing
  deriving DecidableEq, Repr

def Sign.text : Sign → List Char
  | .empty => "empty".toList
  | .value => "value".toList
  | .contains => "contains".toList
  | .equals => ['=', '=']
  | .differs => ['!', '=']
  | .fits => ['=', '~']
  | .not => ['!']
  | .and => ['&', '&']
  | .or => ['|', '|']
  | .opening => ['(']
  | .closing => [')']

def Sign.isWord : Sign → Bool
  | .empty | .value | .contains => true
  | _ => false

inductive Token where
  | sign (s : Sign)
  | string (s : String)
  deriving DecidableEq, Repr

/-! ## The grammar -/

/-- The condition that compares the value with a string; a string to be matched must be a regular
expression. -/
def comparison? : Sign → String → Option Condition
  | .equals, s => some (.equals s)
  | .differs, s => some (.differs s)
  | .fits, s => (Pattern.ofText? s).map .matches
  | .contains, s => some (.contains s)
  | _, _ => none

/-- The parts of a condition, by how tightly they hold together. -/
inductive Rank where
  | or
  | and
  | unary
  | atom
  deriving DecidableEq, Repr

/-- A list of signs and strings stands for a condition. -/
inductive Derives : Rank → List Token → Condition → Prop
  | empty : Derives .atom [.sign .empty] .empty
  | comparison {o : Sign} {s : String} {c : Condition} : comparison? o s = some c →
      Derives .atom [.sign .value, .sign o, .string s] c
  | brackets {ts : List Token} {c : Condition} : Derives .or ts c →
      Derives .atom (.sign .opening :: ts ++ [.sign .closing]) c
  | atom {ts : List Token} {c : Condition} : Derives .atom ts c → Derives .unary ts c
  | not {ts : List Token} {c : Condition} : Derives .unary ts c →
      Derives .unary (.sign .not :: ts) (.not c)
  | unary {ts : List Token} {c : Condition} : Derives .unary ts c → Derives .and ts c
  | and {ts us : List Token} {a b : Condition} : Derives .and ts a → Derives .unary us b →
      Derives .and (ts ++ .sign .and :: us) (.and a b)
  | conjunction {ts : List Token} {c : Condition} : Derives .and ts c → Derives .or ts c
  | or {ts us : List Token} {a b : Condition} : Derives .or ts a → Derives .and us b →
      Derives .or (ts ++ .sign .or :: us) (.or a b)

/-! ## Moves -/

/-- What the reader takes at once, and where this leads: an operand where one is wanted, and an
operator or a bracket behind one. -/
inductive Move : State → List Token → State → Prop
  | not (l : Level) (outer : List Level) :
      Move ⟨l, outer, true⟩ [.sign .not] ⟨{ l with nots := l.nots + 1 }, outer, true⟩
  | opening (l : Level) (outer : List Level) :
      Move ⟨l, outer, true⟩ [.sign .opening] ⟨.start, l :: outer, true⟩
  | empty (l : Level) (outer : List Level) :
      Move ⟨l, outer, true⟩ [.sign .empty] ⟨l.operand .empty, outer, false⟩
  | comparison (l : Level) (outer : List Level) {o : Sign} {s : String} {c : Condition} :
      comparison? o s = some c →
        Move ⟨l, outer, true⟩ [.sign .value, .sign o, .string s] ⟨l.operand c, outer, false⟩
  | and (l : Level) (outer : List Level) :
      Move ⟨l, outer, false⟩ [.sign .and] ⟨l, outer, true⟩
  | or (l : Level) (outer : List Level) :
      Move ⟨l, outer, false⟩ [.sign .or] ⟨l.nextOr, outer, true⟩
  | closing (l around : Level) (outer : List Level) {c : Condition} : l.value = some c →
      Move ⟨l, around :: outer, false⟩ [.sign .closing] ⟨around.operand c, outer, false⟩

inductive Moves : State → List Token → State → Prop
  | nil (x : State) : Moves x [] x
  | cons {x y z : State} {ts us : List Token} : Move x ts y → Moves y us z → Moves x (ts ++ us) z

def State.Ends (x : State) (c : Condition) : Prop :=
  x.wantsOperand = false ∧ x.outer = [] ∧ x.level.value = some c

theorem Move.one {x y : State} {ts : List Token} (h : Move x ts y) : Moves x ts y := by
  simpa using Moves.cons h (.nil y)

theorem Moves.append {x y z : State} {ts us : List Token} :
    Moves x ts y → Moves y us z → Moves x (ts ++ us) z := by
  intro h hrest
  induction h with
  | nil => exact hrest
  | cons hmove _ ih =>
      rw [List.append_assoc]
      exact .cons hmove (ih hrest)

/-! ## What the grammar derives is taken -/

namespace Level

/-- Negations can be taken from either end. -/
theorem negate_not (n : Nat) (c : Condition) : negate n (.not c) = .not (negate n c) := by
  induction n with
  | zero => rfl
  | succ n ih => exact congrArg Condition.not ih

/-- A negation counts for the operand behind it. -/
theorem operand_not (l : Level) (c : Condition) :
    { l with nots := l.nots + 1 }.operand c = l.operand (.not c) := by
  simp only [operand, negate_not, negate]

end Level

/-- Where reading something of a rank leads: atoms and what is negated become operands, whatever has
been read before; a conjunction is read where none has been begun, and a disjunction at the start of
a level. -/
def Rank.Taken : Rank → List Token → Condition → Prop
  | .atom, ts, c | .unary, ts, c =>
      ∀ l outer, Moves ⟨l, outer, true⟩ ts ⟨l.operand c, outer, false⟩
  | .and, ts, c =>
      ∀ ors outer, Moves ⟨⟨ors, none, 0⟩, outer, true⟩ ts ⟨⟨ors, some c, 0⟩, outer, false⟩
  | .or, ts, c =>
      ∀ outer, ∃ l : Level, l.value = some c ∧ Moves ⟨.start, outer, true⟩ ts ⟨l, outer, false⟩

/-- What stands for a condition is taken by the reader where it is wanted. -/
theorem Derives.taken {r : Rank} {ts : List Token} {c : Condition} :
    Derives r ts c → r.Taken ts c := by
  intro h
  -- by induction on the derivation; each rule of the grammar is one move more, or none
  induction h with
  | empty => exact fun l outer => (Move.empty l outer).one
  | comparison hc => exact fun l outer => (Move.comparison l outer hc).one
  | brackets _ ih =>
      intro l outer
      rcases ih (l :: outer) with ⟨inner, hvalue, hmoves⟩
      have hinner := (Move.opening l outer).one.append hmoves
      exact hinner.append (Move.closing inner l outer hvalue).one
  | atom _ ih => exact ih
  | not _ ih =>
      intro l outer
      have hmoves := (Move.not l outer).one.append (ih { l with nots := l.nots + 1 } outer)
      rwa [Level.operand_not] at hmoves
  | unary _ ih => exact fun ors outer => ih ⟨ors, none, 0⟩ outer
  | @and _ us a b _ _ iha ihb =>
      intro ors outer
      have hmoves : Moves ⟨⟨ors, some a, 0⟩, outer, false⟩ (.sign .and :: us)
          ⟨⟨ors, some (.and a b), 0⟩, outer, false⟩ :=
        (Move.and _ outer).one.append (ihb ⟨ors, some a, 0⟩ outer)
      exact (iha ors outer).append hmoves
  | conjunction _ ih => exact fun outer => ⟨_, rfl, ih none outer⟩
  | @or _ us a b _ _ iha ihb =>
      intro outer
      rcases iha outer with ⟨l, hvalue, hmoves⟩
      have hnext : l.nextOr = ⟨some a, none, 0⟩ := by rw [Level.nextOr, hvalue]
      have hor := (Move.or l outer).one
      rw [hnext] at hor
      exact ⟨⟨some a, some b, 0⟩, rfl, hmoves.append (hor.append (ihb (some a) outer))⟩

/-! ## What is taken is derived -/

/-- What has been read of a part before an operator, if any has been read. -/
def Before (r : Rank) (o : Sign) : Option Condition → List Token → Prop
  | none, ts => ts = []
  | some c, ts => ∃ us, ts = us ++ [.sign o] ∧ Derives r us c

/-- What has been read of a level when an operand is wanted. -/
def Level.Wants (l : Level) (ts : List Token) : Prop :=
  ∃ us vs, ts = us ++ vs ++ List.replicate l.nots (.sign .not) ∧ Before .or .or l.ors us ∧
    Before .and .and l.ands vs

/-- What has been read of a level behind an operand. -/
def Level.Behind (l : Level) (ts : List Token) : Prop :=
  ∃ us vs c, ts = us ++ vs ∧ Before .or .or l.ors us ∧ l.ands = some c ∧ Derives .and vs c ∧
    l.nots = 0

/-- What has been read of the levels around the innermost one, each up to an open bracket. -/
def Around : List Level → List Token → Prop
  | [], ts => ts = []
  | l :: outer, ts => ∃ us vs, ts = us ++ vs ++ [.sign .opening] ∧ Around outer us ∧ l.Wants vs

/-- What has been read up to a state. -/
def State.Holds (x : State) (ts : List Token) : Prop :=
  ∃ us vs, ts = us ++ vs ∧ Around x.outer us ∧
    if x.wantsOperand then x.level.Wants vs else x.level.Behind vs

/-- Negations in front of an operand stand for its negation. -/
theorem derives_negate {ts : List Token} {c : Condition} (n : Nat) :
    Derives .unary ts c →
      Derives .unary (List.replicate n (.sign .not) ++ ts) (Level.negate n c) := by
  intro h
  induction n with
  | zero => exact h
  | succ n ih => exact .not ih

namespace Level

/-- The operand that was wanted has been read. -/
theorem Wants.operand {l : Level} {ts us : List Token} {c : Condition} :
    l.Wants ts → Derives .unary us c → (l.operand c).Behind (ts ++ us) := by
  intro h hc
  rcases h with ⟨front, middle, rfl, hors, hands⟩
  -- all signs of negation in front fall on the operand
  have hnegated := derives_negate l.nots hc
  rw [List.append_assoc, List.append_assoc]
  refine ⟨front, middle ++ (List.replicate l.nots (.sign .not) ++ us), _, rfl, hors, rfl, ?_, rfl⟩
  cases hl : l.ands with
  | none =>
      rw [hl] at hands
      obtain rfl : middle = [] := hands
      exact .unary hnegated
  | some a =>
      rw [hl] at hands
      rcases hands with ⟨vs, rfl, ha⟩
      rw [List.append_assoc]
      exact .and ha hnegated

/-- What has been read of a level stands for its value. -/
theorem Behind.derives {l : Level} {ts : List Token} {c : Condition} :
    l.Behind ts → l.value = some c → Derives .or ts c := by
  intro h hvalue
  rcases h with ⟨front, middle, b, rfl, hors, hands, hb, -⟩
  -- the value of a level is its conjunction, behind the disjunction that is open, if one is
  rw [value, hands] at hvalue
  cases hl : l.ors with
  | none =>
      rw [hl] at hors hvalue
      obtain rfl : front = [] := hors
      obtain rfl := Option.some.inj hvalue
      exact .conjunction hb
  | some a =>
      rw [hl] at hors hvalue
      rcases hors with ⟨us, rfl, ha⟩
      obtain rfl := Option.some.inj hvalue
      rw [List.append_assoc]
      exact .or ha hb

/-- A negation leaves an operand wanted. -/
theorem Wants.not {l : Level} {ts : List Token} :
    l.Wants ts → Wants { l with nots := l.nots + 1 } (ts ++ [.sign .not]) := by
  intro h
  rcases h with ⟨front, middle, rfl, hors, hands⟩
  refine ⟨front, middle, ?_, hors, hands⟩
  rw [List.append_assoc, ← List.replicate_succ']

/-- Behind a conjunction an operand is wanted. -/
theorem Behind.and {l : Level} {ts : List Token} :
    l.Behind ts → l.Wants (ts ++ [.sign .and]) := by
  intro h
  rcases h with ⟨front, middle, b, rfl, hors, hands, hb, hnots⟩
  refine ⟨front, middle ++ [.sign .and], ?_, hors, ?_⟩
  · simp [hnots]
  · rw [hands]
    exact ⟨middle, rfl, hb⟩

/-- Behind a disjunction an operand is wanted, for another conjunction. -/
theorem Behind.or {l : Level} {ts : List Token} :
    l.Behind ts → l.nextOr.Wants (ts ++ [.sign .or]) := by
  intro h
  have hvalue : ∃ c, l.value = some c := by
    rcases h with ⟨-, -, b, -, -, hands, -⟩
    rw [value, hands]
    cases l.ors <;> exact ⟨_, rfl⟩
  rcases hvalue with ⟨c, hc⟩
  refine ⟨ts ++ [.sign .or], [], by simp [nextOr], ?_, rfl⟩
  rw [nextOr, hc]
  exact ⟨ts, rfl, h.derives hc⟩

theorem start_wants : start.Wants [] :=
  ⟨[], [], rfl, rfl, rfl⟩

end Level

/-- A move adds what it takes to what has been read. -/
theorem Move.holds {x y : State} {ts us : List Token} :
    Move x us y → x.Holds ts → y.Holds (ts ++ us) := by
  intro hmove h
  rcases h with ⟨front, here, rfl, haround, hlevel⟩
  cases hmove with
  | not l outer => exact ⟨front, _, List.append_assoc .., haround, Level.Wants.not hlevel⟩
  | opening l outer =>
      exact ⟨_, [], (List.append_nil _).symm, ⟨front, here, rfl, haround, hlevel⟩,
        Level.start_wants⟩
  | empty l outer =>
      exact ⟨front, _, List.append_assoc .., haround, Level.Wants.operand hlevel (.atom .empty)⟩
  | comparison l outer hc =>
      exact ⟨front, _, List.append_assoc .., haround,
        Level.Wants.operand hlevel (.atom (.comparison hc))⟩
  | and l outer => exact ⟨front, _, List.append_assoc .., haround, Level.Behind.and hlevel⟩
  | or l outer => exact ⟨front, _, List.append_assoc .., haround, Level.Behind.or hlevel⟩
  | closing l around outer hvalue =>
      -- what stood in the brackets is an operand of the level around them
      rcases haround with ⟨before, outside, rfl, hbefore, hwants⟩
      have hbrackets := Derives.brackets (Level.Behind.derives hlevel hvalue)
      refine ⟨before, outside ++ (.sign .opening :: here ++ [.sign .closing]), ?_, hbefore,
        hwants.operand (.atom hbrackets)⟩
      simp

/-- Whatever the reader takes, what has been read stands for what it has built. -/
theorem Moves.holds {x y : State} {ts us : List Token} :
    Moves x us y → x.Holds ts → y.Holds (ts ++ us) := by
  intro hmoves h
  induction hmoves generalizing ts with
  | nil => simpa using h
  | cons hmove _ ih =>
      rw [← List.append_assoc]
      exact ih (hmove.holds h)

/-- The reader takes a list to its end exactly if the grammar derives it, and ends with the condition
that it stands for. -/
theorem derives_iff {ts : List Token} {c : Condition} :
    Derives .or ts c ↔ ∃ x, Moves ⟨.start, [], true⟩ ts x ∧ x.Ends c := by
  constructor
  · intro h
    rcases h.taken [] with ⟨l, hvalue, hmoves⟩
    exact ⟨_, hmoves, rfl, rfl, hvalue⟩
  · intro h
    rcases h with ⟨⟨l, outer, wants⟩, hmoves, hwants, houter, hvalue⟩
    obtain rfl : wants = false := hwants
    obtain rfl : outer = [] := houter
    rcases hmoves.holds ⟨[], [], rfl, rfl, Level.start_wants⟩ with ⟨us, vs, hts, hus, hlevel⟩
    obtain rfl : us = [] := hus
    obtain rfl : ts = vs := hts
    exact Level.Behind.derives hlevel hvalue

end Condition
end Recast
