import Recast.Pattern.Tree
import Recast.Text.Count
import Recast.Text.Parts

/-!
# Reader — regular expressions from their text

The text of a regular expression has literals, classes, groups, alternatives, repetitions,
assertions and flags; there is no look-around and there are no references to groups.

* `Flags` — the letters that change the meaning of what follows in the same group;
* `readEscape?` — what stands behind a backslash;
* `readClass?` — what stands between square brackets;
* `State.step?` — one construct of an expression;
* `parse?` — a whole expression with the names of its groups;
* `read?` — an expression that is not too large;
* `escape` — an expression for a text itself.

Every loop ends on the length of the text: it stops when a step takes nothing, or goes through no
more constructs than the text has characters.
-/

namespace Recast
namespace Pattern

/-- The flags in force. -/
structure Flags where
  ignoreCase : Bool
  multiLine : Bool
  dotAll : Bool
  swapGreed : Bool
  unicode : Bool
  anyLineEnd : Bool
  extended : Bool
  deriving DecidableEq, Repr

def Flags.initial : Flags := ⟨false, false, false, false, true, false, false⟩

/-! ## Blanks and comments -/

/-- Pass over blanks, and over comments up to the end of their line. -/
def skipExtended (inComment : Bool) : List Char → List Char
  | [] => []
  | c :: rest =>
      if inComment then skipExtended (c != '\n') rest
      else if Text.isBlank c then skipExtended false rest
      else if c = '#' then skipExtended true rest
      else c :: rest

/-- Pass over what does not count under the flags. -/
def Flags.skip (f : Flags) (cs : List Char) : List Char :=
  if f.extended then skipExtended false cs else cs

/-! ## Sets under flags -/

/-- A set closed under case if case is ignored. -/
def Flags.fold (f : Flags) (s : CharSet) : CharSet :=
  if f.ignoreCase then (if f.unicode then s.closeCase else s.closeAsciiCase) else s

/-- A set or its complement; without Unicode a complement would not consist of characters. -/
def Flags.signed? (f : Flags) (negated : Bool) (s : CharSet) : Option CharSet :=
  if !negated then some s else if f.unicode then some s.negate else none

/-! ## Escapes -/

/-- What an escape stands for. -/
inductive Escape where
  | char (c : Char)
  | set (s : CharSet)
  | assert (a : Assertion)

/-- The characters that have a meaning of their own. -/
def isMeta (c : Char) : Bool :=
  "\\.+*?()|[]\x7b\x7d^$#&-~".toList.contains c

/-- An expression for a text itself: a backslash in front of each character that has a meaning of
its own. -/
def escape (cs : List Char) : List Char :=
  cs.flatMap fun c => if isMeta c then ['\\', c] else [c]

def charOf? (f : Flags) (n : Nat) : Option Escape :=
  if h : n.isValidChar then
    if f.unicode || n < 0x80 then some (.char (Char.ofNatAux n h)) else none
  else none

def readHexDigits? (f : Flags) (value : Nat) : Nat → List Char → Option (Nat × List Char)
  | 0, cs => some (value, cs)
  | n + 1, cs =>
      match cs with
      | [] => none
      | c :: rest =>
          (Text.hexDigit? c).bind fun d => readHexDigits? f (value * 16 + d) n (f.skip rest)

/-- The characters up to a closing brace, and what follows it. -/
def readBraced? (f : Flags) : List Char → Option (List Char × List Char)
  | [] => none
  | c :: rest =>
      if c = '}' then some ([], rest)
      else if f.extended && Text.isBlank c then readBraced? f rest
      else (readBraced? f rest).map fun (cs, tail) => (c :: cs, tail)

/-- The number that hexadecimal digits stand for; it must fit 32 bits. -/
def hexNumber? (cs : List Char) : Option Nat :=
  if cs.isEmpty then none
  else
    (cs.foldlM (fun n c => (Text.hexDigit? c).bind fun d =>
      if n * 16 + d < 0x100000000 then some (n * 16 + d) else none) 0)

/-- A character by its code point, in a fixed number of digits or in braces. -/
def readHex? (f : Flags) (digits : Nat) (cs : List Char) : Option (Escape × List Char) :=
  match f.skip cs with
  | '{' :: rest => do
      let (ds, tail) ← readBraced? f rest
      let n ← hexNumber? ds
      return (← charOf? f n, tail)
  | cs' => do
      let (n, tail) ← readHexDigits? f 0 digits cs'
      return (← charOf? f n, tail)

/-- The set that is meant between the braces of a property. -/
def propertySet? (negated : Bool) (f : Flags) (name : List Char) : Option CharSet :=
  let valued := fun (negated : Bool) (p : List Char × List Char) =>
    (CharSet.valued? (String.ofList p.1) (String.ofList p.2)).bind fun s =>
      f.signed? negated (f.fold s)
  match Text.cut? ['!', '='] name with
  | some p => valued (!negated) p
  | none =>
      match Text.cut? [':'] name with
      | some p => valued negated p
      | none =>
          match Text.cut? ['='] name with
          | some p => valued negated p
          | none =>
              (CharSet.named? (String.ofList name)).bind fun s => f.signed? negated (f.fold s)

def readProperty? (f : Flags) (negated : Bool) (cs : List Char) : Option (Escape × List Char) :=
  if !f.unicode then none
  else match f.skip cs with
    | '{' :: rest => do
        let (name, tail) ← readBraced? f rest
        return (.set (← propertySet? negated f name), tail)
    | c :: rest =>
        if c = '\\' then none
        else (propertySet? negated f [c]).map fun s => (.set s, rest)
    | [] => none

/-- A named kind of word boundary, if one stands in braces; braces that start otherwise are left
for a repetition. -/
def readBoundary? (f : Flags) (cs : List Char) : Option (Assertion × List Char) :=
  let ascii := !f.unicode
  let isName := fun (c : Char) => c.isAlpha || c = '-'
  match cs with
  | '{' :: rest =>
      match f.skip rest with
      | [] => none
      | c :: more =>
          if isName c then do
            let (name, tail) ← readBraced? f (c :: more)
            match String.ofList name with
            | "start" => return (.wordStart ascii, tail)
            | "end" => return (.wordEnd ascii, tail)
            | "start-half" => return (.notAfterWord ascii, tail)
            | "end-half" => return (.notBeforeWord ascii, tail)
            | _ => none
          else some (.boundary ascii, cs)
  | _ => some (.boundary ascii, cs)

def readEscape? (f : Flags) : List Char → Option (Escape × List Char)
  | [] => none
  | c :: rest =>
      let class_ := fun (negated : Bool) (wide narrow : CharSet) =>
        (f.signed? negated (if f.unicode then wide else narrow)).map fun s =>
          (Escape.set s, rest)
      match c with
      | 'x' => readHex? f 2 rest
      | 'u' => readHex? f 4 rest
      | 'U' => readHex? f 8 rest
      | 'p' => readProperty? f false rest
      | 'P' => readProperty? f true rest
      | 'd' => class_ false .digits .asciiDigits
      | 'D' => class_ true .digits .asciiDigits
      | 's' => class_ false .spaces .asciiSpaces
      | 'S' => class_ true .spaces .asciiSpaces
      | 'w' => class_ false .words .asciiWords
      | 'W' => class_ true .words .asciiWords
      | 'a' => some (.char '\x07', rest)
      | 'f' => some (.char '\x0c', rest)
      | 't' => some (.char '\t', rest)
      | 'n' => some (.char '\n', rest)
      | 'r' => some (.char '\r', rest)
      | 'v' => some (.char '\x0b', rest)
      | 'A' => some (.assert .textStart, rest)
      | 'z' => some (.assert .textEnd, rest)
      | 'b' => (readBoundary? f rest).map fun (a, tail) => (.assert a, tail)
      | 'B' => some (.assert (.notBoundary !f.unicode), rest)
      | '<' => some (.assert (.wordStart !f.unicode), rest)
      | '>' => some (.assert (.wordEnd !f.unicode), rest)
      | _ => if c.toNat < 0x80 && !c.isAlphanum then some (.char c, rest) else none

/-! ## Classes -/

/-- How two classes are combined. -/
inductive ClassOp where
  | inter
  | diff
  | symmDiff

/-- An open class: what has been gathered, and the operation it will be the right side of. -/
structure ClassFrame where
  negated : Bool
  left : Option (ClassOp × CharSet)
  items : CharSet

namespace ClassFrame

def add (k : ClassFrame) (s : CharSet) : ClassFrame :=
  { k with items := k.items.union s }

/-- The characters of a class up to its latest operation. -/
def value (f : Flags) (k : ClassFrame) : CharSet :=
  match k.left with
  | none => k.items
  | some (op, l) =>
      -- both sides are closed under case before they are combined
      let a := f.fold l
      let b := f.fold k.items
      match op with
      | .inter => a.inter b
      | .diff => a.diff b
      | .symmDiff => a.symmDiff b

/-- Start the right side of an operation. -/
def operate (f : Flags) (op : ClassOp) (k : ClassFrame) : ClassFrame :=
  { k with left := some (op, k.value f), items := .empty }

/-- The characters of a class that has ended. -/
def close? (f : Flags) (k : ClassFrame) : Option CharSet :=
  f.signed? k.negated (f.fold (k.value f))

end ClassFrame

/-- The hyphens at the start of a class, which stand for themselves. -/
def leadingHyphens (f : Flags) (items : CharSet) : List Char → CharSet × List Char
  | [] => (items, [])
  | c :: rest =>
      if c = '-' then leadingHyphens f (items.union (.single '-')) rest
      else if f.extended && Text.isBlank c && !items.ranges.isEmpty then
        leadingHyphens f items rest
      else (items, c :: rest)

/-- The start of a class, behind its bracket: a caret, hyphens, and a bracket that stands for
itself. -/
def openClass? (f : Flags) (cs : List Char) : Option (ClassFrame × List Char) :=
  match f.skip cs with
  | [] => none
  | c :: rest =>
      let negated := c = '^'
      let (items, tail) :=
        leadingHyphens f .empty (if negated then f.skip rest else c :: rest)
      match tail with
      | [] => none
      | d :: more =>
          if items.ranges.isEmpty && d = ']' then
            some (⟨negated, none, .single ']'⟩, f.skip more)
          else some (⟨negated, none, items⟩, d :: more)

/-- A class that is named between `[:` and `:]`, behind its first bracket. -/
def readPosix? (f : Flags) : List Char → Option (CharSet × List Char)
  | ':' :: rest =>
      let (negated, body) := match rest with
        | '^' :: more => (true, more)
        | _ => (false, rest)
      match body.dropWhile (· != ':') with
      | ':' :: ']' :: tail =>
          (CharSet.posix? (String.ofList (body.takeWhile (· != ':')))).bind fun s =>
            (f.signed? negated (f.fold s)).map (·, tail)
      | _ => none
  | _ => none

/-- One member of a class: a character, or a set. -/
def readMember? (f : Flags) : List Char → Option (Escape × List Char)
  | [] => none
  | '\\' :: rest => do
      match ← readEscape? f rest with
      | (.assert _, _) => none
      | r => return r
  | c :: rest => if f.unicode || c.toNat < 0x80 then some (.char c, rest) else none

/-- A member of a class, or the range from one to another. -/
def readRange? (f : Flags) (cs : List Char) : Option (CharSet × List Char) := do
  let (first, rest) ← readMember? f cs
  let alone : CharSet := match first with
    | .set s => s
    | .char c => .single c
    | .assert _ => .empty
  match f.skip rest with
  | [] => none
  | '-' :: more =>
      match f.skip more with
      -- such a hyphen makes no range: it stands for itself or for a difference
      | ']' :: _ | '-' :: _ => return (alone, f.skip rest)
      | more' => do
          let (last, tail) ← readMember? f more'
          match first, last with
          | .char a, .char b => if a ≤ b then return (.range a.toNat b.toNat, tail) else none
          | _, _ => none
  | rest' => return (alone, rest')

/-- One construct inside classes; the first class is the innermost.  The result is the innermost
classes again, or the characters of the outermost class. -/
def classStep? (f : Flags) (stack : List ClassFrame) (cs : List Char) :
    Option ((List ClassFrame ⊕ CharSet) × List Char) :=
  match stack with
  | [] => none
  | k :: outer =>
      match cs with
      | [] => none
      | '[' :: rest =>
          match readPosix? f rest with
          | some (s, tail) => some (.inl (k.add s :: outer), tail)
          | none => (openClass? f rest).map fun (k', tail) => (.inl (k' :: k :: outer), tail)
      | ']' :: rest => do
          let s ← k.close? f
          match outer with
          | [] => return (.inr s, rest)
          | p :: more => return (.inl (p.add s :: more), rest)
      | '&' :: '&' :: rest => some (.inl (k.operate f .inter :: outer), rest)
      | '-' :: '-' :: rest => some (.inl (k.operate f .diff :: outer), rest)
      | '~' :: '~' :: rest => some (.inl (k.operate f .symmDiff :: outer), rest)
      | _ => (readRange? f cs).map fun (s, tail) => (.inl (k.add s :: outer), tail)

/-- Read on until the outermost class has ended. -/
def readClasses? (f : Flags) (stack : List ClassFrame) (cs : List Char) :
    Option (CharSet × List Char) :=
  match classStep? f stack (f.skip cs) with
  | none => none
  | some (.inr s, rest) => some (s, rest)
  | some (.inl stack', rest) =>
      if _h : rest.length < cs.length then readClasses? f stack' rest else none
termination_by cs.length

def readClass? (f : Flags) (cs : List Char) : Option (CharSet × List Char) := do
  let (k, rest) ← openClass? f cs
  readClasses? f [k] rest

/-! ## Expressions -/

/-- A part of a sequence. -/
inductive Item where
  | tree (t : Tree)
  /-- A change of flags, which cannot be repeated. -/
  | flags

/-- The tree of the parts of a sequence, given in reverse. -/
def treeOf (items : List Item) : Tree :=
  .ofSeq (items.reverse.filterMap fun
    | .tree t => some t
    | .flags => none)

/-- A group that has been opened: the alternatives and the sequence around it, the flags that come
back after it, and its number if it captures. -/
structure GroupFrame where
  alts : List Tree
  items : List Item
  flags : Flags
  index : Option Nat

/-- The state of reading an expression; alternatives and parts are gathered in reverse. -/
structure State where
  flags : Flags
  /-- The number of capturing groups so far. -/
  groups : Nat
  names : List (String × Nat)
  alts : List Tree
  items : List Item
  stack : List GroupFrame

namespace State

def push (x : State) (t : Tree) : State :=
  { x with items := .tree t :: x.items }

/-- The tree of the innermost group as far as it has been read. -/
def tree (x : State) : Tree :=
  .ofAlt (x.alts.reverse ++ [treeOf x.items])

def openGroup (x : State) (flags : Flags) (index : Option Nat) : State :=
  { x with
    flags := flags, alts := [], items := []
    stack := ⟨x.alts, x.items, x.flags, index⟩ :: x.stack }

def closeGroup? (x : State) : Option State :=
  match x.stack with
  | [] => none
  | g :: rest =>
      let t := match g.index with
        | some i => Tree.capture i x.tree
        -- a group that does not capture is still one part, to be repeated as a whole
        | none => .seq [x.tree]
      some { x with flags := g.flags, alts := g.alts, items := .tree t :: g.items, stack := rest }

def repeat? (x : State) (least : Nat) (most : Option Nat) (cs : List Char) :
    Option (State × List Char) :=
  match x.items with
  | .tree t :: rest =>
      let (lazy, tail) := match cs with
        | '?' :: more => (true, more)
        | _ => (false, cs)
      some ({ x with items := .tree (.rep least most (lazy == x.flags.swapGreed) t) :: rest }, tail)
  | _ => none

def literal (f : Flags) (c : Char) : Tree :=
  .set (f.fold (.single c))

/-- Any character but those that end a line. -/
def dot? (f : Flags) : Option Tree :=
  if !f.unicode then none
  else if f.dotAll then some (.set .all)
  else if f.anyLineEnd then some (.set (CharSet.ofRanges [(0x0A, 0x0A), (0x0D, 0x0D)]).negate)
  else some (.set (CharSet.single '\n').negate)

/-- The start of the text or of a line. -/
def caret (f : Flags) : Assertion :=
  if !f.multiLine then .textStart else if f.anyLineEnd then .anyLineStart else .lineStart

def dollar (f : Flags) : Assertion :=
  if !f.multiLine then .textEnd else if f.anyLineEnd then .anyLineEnd else .lineEnd

end State

def Flags.switch? (f : Flags) (on : Bool) : Char → Option Flags
  | 'i' => some { f with ignoreCase := on }
  | 'm' => some { f with multiLine := on }
  | 's' => some { f with dotAll := on }
  | 'U' => some { f with swapGreed := on }
  | 'u' => some { f with unicode := on }
  | 'R' => some { f with anyLineEnd := on }
  | 'x' => some { f with extended := on }
  | _ => none

/-- Flags up to a colon or a closing bracket, no letter twice; the result also says how many
letters there were and which character ended them. -/
def readFlags? (f : Flags) (seen : List Char) (on dangling : Bool) :
    List Char → Option (Flags × Nat × Char × List Char)
  | [] => none
  | c :: rest =>
      if c = ':' || c = ')' then
        if dangling then none else some (f, seen.length, c, rest)
      else if c = '-' then (if on then readFlags? f seen false true rest else none)
      else if c ∈ seen then none
      else (f.switch? on c).bind fun f' => readFlags? f' (c :: seen) on false rest

/-- Whether a character may be part of the name of a group. -/
def isGroupNameChar (first : Bool) (c : Char) : Bool :=
  if first then c = '_' || Unicode.isAlphabetic c
  else c = '_' || c = '.' || c = '[' || c = ']' || Unicode.isAlphabetic c || Unicode.isNumeric c

/-- The name of a group and what follows its angle bracket. -/
def readGroupName? (cs : List Char) : Option (String × List Char) :=
  match cs.takeWhile (· != '>'), cs.dropWhile (· != '>') with
  | c :: name, '>' :: rest =>
      if isGroupNameChar true c && name.all (isGroupNameChar false) then
        some (String.ofList (c :: name), rest)
      else none
  | _, _ => none

namespace State

/-- Open a group that captures under a name. -/
def openNamed? (x : State) (cs : List Char) : Option (State × List Char) := do
  let (name, rest) ← readGroupName? cs
  if (x.names.lookup name).isSome then none
  else
    let index := x.groups + 1
    return (({ x with groups := index, names := (name, index) :: x.names }).openGroup x.flags
      (some index), rest)

/-- What stands behind an opening bracket: a group, or a change of flags. -/
def group? (x : State) (cs : List Char) : Option (State × List Char) :=
  match x.flags.skip cs with
  -- there is no look-around
  | '?' :: '=' :: _ | '?' :: '!' :: _ | '?' :: '<' :: '=' :: _ | '?' :: '<' :: '!' :: _ => none
  | '?' :: 'P' :: '<' :: rest => x.openNamed? rest
  | '?' :: '<' :: rest => x.openNamed? rest
  | '?' :: rest => do
      let (f, count, final, tail) ← readFlags? x.flags [] true false rest
      if final = ':' then return (x.openGroup f none, tail)
      -- brackets without flags say nothing
      else if count = 0 then none
      else return ({ x with flags := f, items := .flags :: x.items }, tail)
  | cs' =>
      some (({ x with groups := x.groups + 1 }).openGroup x.flags (some (x.groups + 1)), cs')

end State

/-- A decimal number of at most 32 bits with blanks around it. -/
def readDecimal? (f : Flags) (cs : List Char) : Option (Nat × List Char) :=
  let start := cs.dropWhile Text.isBlank
  let rec digits (found : Bool) (n : Nat) : List Char → Option (Nat × List Char)
    | [] => if found then some (n, []) else none
    | c :: rest =>
        if c.isDigit then digits true (min (n * 10 + (c.toNat - '0'.toNat)) 0x100000000) rest
        else if f.extended && found && Text.isBlank c then digits true n rest
        else if found then some (n, c :: rest)
        else none
  match digits false 0 start with
  | some (n, rest) => if n < 0x100000000 then some (n, rest.dropWhile Text.isBlank) else none
  | none => none

namespace State

/-- A repetition with counts, behind its brace. -/
def counted? (x : State) (cs : List Char) : Option (State × List Char) := do
  let (least, rest) ← readDecimal? x.flags (x.flags.skip cs)
  match rest with
  | '}' :: tail => x.repeat? least (some least) (x.flags.skip tail)
  | ',' :: more =>
      match x.flags.skip more with
      | '}' :: tail => x.repeat? least none (x.flags.skip tail)
      | more' => do
          let (most, rest') ← readDecimal? x.flags more'
          match rest' with
          | '}' :: tail =>
              if least ≤ most then x.repeat? least (some most) (x.flags.skip tail) else none
          | _ => none
  | _ => none

def step? (x : State) : List Char → Option (State × List Char)
  | [] => none
  | '(' :: rest => x.group? rest
  | ')' :: rest => x.closeGroup?.map (·, rest)
  | '|' :: rest => some ({ x with alts := treeOf x.items :: x.alts, items := [] }, rest)
  | '[' :: rest => (readClass? x.flags rest).map fun (s, tail) => (x.push (.set s), tail)
  | '?' :: rest => x.repeat? 0 (some 1) rest
  | '*' :: rest => x.repeat? 0 none rest
  | '+' :: rest => x.repeat? 1 none rest
  | '{' :: rest => x.counted? rest
  | '.' :: rest => (dot? x.flags).map fun t => (x.push t, rest)
  | '^' :: rest => some (x.push (.assert (caret x.flags)), rest)
  | '$' :: rest => some (x.push (.assert (dollar x.flags)), rest)
  | '\\' :: rest => do
      let (e, tail) ← readEscape? x.flags rest
      return (x.push (match e with
        | .char c => literal x.flags c
        | .set s => .set s
        | .assert a => .assert a), tail)
  | c :: rest => some (x.push (literal x.flags c), rest)

/-- Read on until the text ends, through at most so many constructs. -/
def run? (x : State) (constructs : Nat) (cs : List Char) : Option State :=
  match x.flags.skip cs with
  | [] => some x
  | c :: rest =>
      match constructs with
      | 0 => none
      | n + 1 =>
          match x.step? (c :: rest) with
          | none => none
          | some (x', tail) => x'.run? n tail

end State

/-- A regular expression together with the names of its groups. -/
structure Expression where
  tree : Tree
  groups : Nat
  names : List (String × Nat)

def maxNesting : Nat := 250

/-- The greatest size of an expression, counted in ranges of characters. -/
def maxWeight : Nat := 160000

/-- Whether an expression is no larger than expressions may be. -/
def Expression.isModest (e : Expression) : Bool :=
  e.tree.depth ≤ maxNesting && e.tree.weight ≤ maxWeight

def parse? (s : String) : Option Expression := do
  -- every construct takes at least one character
  let x ← State.run? ⟨.initial, 0, [], [], [], []⟩ s.length s.toList
  if x.stack.isEmpty then return ⟨x.tree, x.groups, x.names⟩ else none

def read? (s : String) : Option Expression :=
  (parse? s).filter Expression.isModest

end Pattern
end Recast
