import Recast.Morph.Source
import Recast.Proofs.Pattern.Search

/-!
# Starred — what the regular expression of a source matches

The regular expression of a source is made by escaping the source and replacing its stars in the
escaped text.  It is a sequence of one piece for each character of the source, and it matches the
paths that the source spells out, whatever characters the source has: `matches_source`.

* `Source.Spells` — a text is spelt by a source in which a star stands for a run of one line;
* `Source.piece` — what a character of a source becomes in the regular expression.
-/

namespace Recast
namespace Source

open Pattern (Instruction Leads)

/-! ## What a source spells -/

/-- A text is spelt by a source: a star stands for any characters but line feeds, also for none, and
every other character for itself. -/
inductive Spells : List Char → List Char → Prop
  | nil : Spells [] []
  | star {run source cs : List Char} (h : '\n' ∉ run) (rest : Spells source cs) :
      Spells ('*' :: source) (run ++ cs)
  | char {c : Char} {source cs : List Char} (h : c ≠ '*') (rest : Spells source cs) :
      Spells (c :: source) (c :: cs)

/-- Some characters of a line may stand in front of what fits. -/
theorem fitsSome_iff {p : List Char → Bool} {cs : List Char} :
    fitsSome p cs = true ↔ ∃ run rest, cs = run ++ rest ∧ '\n' ∉ run ∧ p rest = true := by
  induction cs with
  | nil =>
      rw [fitsSome]
      constructor
      · intro h
        exact ⟨[], [], rfl, List.not_mem_nil, h⟩
      · rintro ⟨run, rest, hcs, -, h⟩
        obtain ⟨-, rfl⟩ := List.append_eq_nil_iff.1 hcs.symm
        exact h
  | cons c cs ih =>
      rw [fitsSome, Bool.or_eq_true, Bool.and_eq_true, bne_iff_ne, ih]
      constructor
      · -- the star takes no character, or one more than in the rest
        rintro (h | ⟨hc, run, rest, rfl, hrun, h⟩)
        · exact ⟨[], c :: cs, rfl, List.not_mem_nil, h⟩
        · refine ⟨c :: run, rest, rfl, ?_, h⟩
          rw [List.mem_cons, not_or]
          exact ⟨Ne.symm hc, hrun⟩
      · rintro ⟨run, rest, hcs, hrun, h⟩
        cases run with
        | nil => exact .inl (hcs ▸ h)
        | cons d run =>
            obtain ⟨rfl, rfl⟩ := List.cons.inj hcs
            rw [List.mem_cons, not_or] at hrun
            exact .inr ⟨Ne.symm hrun.1, run, rest, rfl, hrun.2, h⟩

/-- A text fits a pattern if the pattern spells it. -/
theorem fits_iff {source cs : List Char} : fits source cs = true ↔ Spells source cs := by
  induction source generalizing cs with
  | nil =>
      rw [fits.eq_def]
      constructor
      · intro h
        obtain rfl := List.isEmpty_iff.1 h
        exact .nil
      · rintro ⟨⟩
        rfl
  | cons p source ih =>
      -- a star leaves a rest that spells the rest of the source, any other character stands for
      -- itself
      by_cases hp : p = '*'
      · subst hp
        rw [show fits ('*' :: source) cs = fitsSome (fits source) cs from rfl, fitsSome_iff]
        constructor
        · rintro ⟨run, rest, rfl, hrun, h⟩
          exact .star hrun (ih.1 h)
        · intro h
          cases h with
          | star hrun hrest => exact ⟨_, _, rfl, hrun, ih.2 hrest⟩
          | char h _ => exact absurd rfl h
      · cases cs with
        | nil =>
            refine iff_of_false (by simp [fits]) fun h => ?_
            generalize hnil : ([] : List Char) = cs at h
            cases h with
            | star => exact hp rfl
            | char => cases hnil
        | cons c cs =>
            rw [show fits (p :: source) (c :: cs) = (p = c && fits source cs) by simp [fits],
              Bool.and_eq_true, decide_eq_true_iff, ih]
            constructor
            · rintro ⟨rfl, h⟩
              exact .char hp h
            · intro h
              generalize htext : c :: cs = text at h
              cases h with
              | star => exact absurd rfl hp
              | char _ h =>
                  obtain ⟨rfl, rfl⟩ := List.cons.inj htext
                  exact ⟨rfl, h⟩

/-! ## The text of the regular expression -/

/-- What a character of a source is in the text of the regular expression. -/
def atom (c : Char) : List Char :=
  if c = '*' then ['.', '*'] else if Pattern.isMeta c then ['\\', c] else [c]

/-- A star stands for any characters of a line. -/
@[simp] theorem atom_star : atom '*' = ['.', '*'] :=
  rfl

theorem atom_of_isMeta {c : Char} (hstar : c ≠ '*') (h : Pattern.isMeta c = true) :
    atom c = ['\\', c] := by
  rw [atom, if_neg hstar, if_pos h]

theorem atom_of_not_isMeta {c : Char} (h : ¬ Pattern.isMeta c = true) : atom c = [c] := by
  rw [atom, if_neg (by rintro rfl; exact h rfl), if_neg h]

/-- No escaped text starts with a star. -/
theorem head?_escape_ne_star (cs : List Char) : (Pattern.escape cs).head? ≠ some '*' := by
  cases cs with
  | nil => simp [Pattern.escape]
  | cons c cs =>
      rw [Pattern.escape, List.flatMap_cons]
      by_cases h : Pattern.isMeta c = true
      · simp [h]
      · rw [if_neg h]
        rintro ⟨⟩
        exact h rfl

/-- Only an escaped star is replaced. -/
theorem replace_of_unmatched {c : Char} {rest : List Char}
    (h : c ≠ '\\' ∨ rest.head? ≠ some '*') :
    Text.replace ['\\', '*'] ['.', '*'] 0 (c :: rest) =
      c :: Text.replace ['\\', '*'] ['.', '*'] 0 rest := by
  have hunmatched : ['\\', '*'].isPrefixOf (c :: rest) = false := by
    cases rest with
    | nil => simp [List.isPrefixOf]
    | cons d rest =>
        simp only [List.head?_cons, ne_eq, Option.some.injEq] at h
        simp [List.isPrefixOf]
        grind
  rw [Text.replace]
  simp [hunmatched]

/-- The stars of an escaped source are just those that the source has itself. -/
theorem replace_escape (cs : List Char) :
    Text.replace ['\\', '*'] ['.', '*'] 0 (Pattern.escape cs) = cs.flatMap atom := by
  induction cs with
  | nil => rfl
  | cons c cs ih =>
      rw [List.flatMap_cons, ← ih, Pattern.escape, List.flatMap_cons]
      by_cases hstar : c = '*'
      · subst hstar
        rfl
      · by_cases h : Pattern.isMeta c = true
        · rw [if_pos h, atom_of_isMeta hstar h]
          -- neither the backslash nor the character after it starts an escaped star
          have hslash : (c :: Pattern.escape cs).head? ≠ some '*' := by simpa using hstar
          calc Text.replace ['\\', '*'] ['.', '*'] 0 ('\\' :: c :: Pattern.escape cs)
              = '\\' :: Text.replace ['\\', '*'] ['.', '*'] 0 (c :: Pattern.escape cs) :=
                replace_of_unmatched (.inr hslash)
            _ = '\\' :: c :: Text.replace ['\\', '*'] ['.', '*'] 0 (Pattern.escape cs) := by
                rw [replace_of_unmatched (.inr (head?_escape_ne_star cs))]
        · have hslash : c ≠ '\\' := by
            rintro rfl
            exact h rfl
          rw [if_neg h, atom_of_not_isMeta h]
          exact replace_of_unmatched (.inl hslash)

/-- The text of a regular expression consists of its ends and what each character of the source is
in it. -/
theorem toList_patternText (source : String) :
    (patternText source).toList = '^' :: source.toList.flatMap atom ++ ['$'] := by
  rw [patternText, String.toList_ofList, replace_escape]

/-! ## The tree of the regular expression -/

/-- What a character of a source is in the tree of the regular expression. -/
def piece (c : Char) : Pattern.Tree :=
  if c = '*' then .rep 0 none true (.set (Pattern.CharSet.single '\n').negate)
  else .set (.single c)

def tree (cs : List Char) : Pattern.Tree :=
  .seq (.assert .textStart :: (cs.map piece ++ [.assert .textEnd]))

/-- Behind a backslash a character with a meaning of its own stands for itself. -/
theorem readEscape?_of_isMeta {c : Char} (h : Pattern.isMeta c = true) (rest : List Char) :
    Pattern.readEscape? .initial (c :: rest) = some (.char c, rest) := by
  simp only [Pattern.isMeta, List.contains_iff_mem] at h
  simp at h
  rcases h with rfl | rfl | rfl | rfl | rfl | rfl | rfl | rfl | rfl | rfl | rfl | rfl | rfl | rfl |
    rfl | rfl | rfl | rfl <;> rfl

open Pattern (State) in
/-- A character without a meaning of its own is read as itself. -/
theorem step?_of_not_isMeta {x : State} {c : Char} (h : ¬ Pattern.isMeta c = true)
    (rest : List Char) : x.step? (c :: rest) = some (x.push (State.literal x.flags c), rest) := by
  have hne : ∀ d, Pattern.isMeta d = true → c ≠ d := by
    rintro d hd rfl
    exact h hd
  unfold State.step?
  split
  case h_1 heq => cases heq
  case h_14 heq =>
    obtain ⟨rfl, rfl⟩ := List.cons.inj heq
    rfl
  -- in all other cases a character with a meaning of its own comes first
  all_goals
    rename_i heq
    exact absurd (List.cons.inj heq).1 (hne _ rfl)

/-- No text that a source becomes starts with a question mark. -/
theorem head?_flatMap_atom_ne (cs : List Char) :
    (cs.flatMap atom ++ ['$']).head? ≠ some '?' := by
  cases cs with
  | nil => simp
  | cons c cs =>
      rw [List.flatMap_cons]
      by_cases hstar : c = '*'
      · simp [hstar]
      · by_cases h : Pattern.isMeta c = true
        · simp [atom_of_isMeta hstar h]
        · rw [atom_of_not_isMeta h]
          rintro ⟨⟩
          exact h rfl

section Reading

open Pattern (State Item)

/-- The state in which some parts have been read, given in reverse. -/
def reading (items : List Item) : State :=
  ⟨.initial, 0, [], [], items, []⟩

theorem run?_step {c : Char} {rest tail : List Char} {n : Nat} {items : List Item} {x : State}
    (h : (reading items).step? (c :: rest) = some (x, tail)) :
    (reading items).run? (n + 1) (c :: rest) = x.run? n tail := by
  have hskip : (reading items).flags.skip (c :: rest) = c :: rest := rfl
  rw [State.run?]
  simp only [hskip, h]

/-- A star repeats the part before it, unless a question mark changes its greed. -/
theorem repeat?_of_head?_ne {t : Pattern.Tree} {items : List Item} {cs : List Char}
    (hcs : cs.head? ≠ some '?') :
    (reading (.tree t :: items)).repeat? 0 none cs =
      some (reading (.tree (.rep 0 none true t) :: items), cs) := by
  unfold State.repeat?
  simp only [reading]
  split
  · exact absurd rfl hcs
  · rfl

/-- The characters that one character of a source becomes are read into its piece. -/
theorem run?_atom {c : Char} {n : Nat} {items : List Item} {cs : List Char}
    (hcs : cs.head? ≠ some '?') (hn : (atom c ++ cs).length ≤ n) :
    ∃ m, cs.length ≤ m ∧ (reading items).run? n (atom c ++ cs) =
      (reading (.tree (piece c) :: items)).run? m cs := by
  rw [List.length_append] at hn
  by_cases hstar : c = '*'
  case pos =>
    -- the dot is read as a set and repeated by the star behind it
    subst hstar
    obtain ⟨m, rfl⟩ : ∃ m, n = m + 2 := Nat.exists_eq_add_of_le' (Nat.le_of_add_right_le hn)
    refine ⟨m, Nat.le_of_add_le_add_left (Nat.add_comm m 2 ▸ hn), ?_⟩
    have hdot : (reading items).step? ('.' :: '*' :: cs) =
        some (reading (.tree (.set (Pattern.CharSet.single '\n').negate) :: items), '*' :: cs) :=
      rfl
    have hrepeat : (reading (.tree (.set (Pattern.CharSet.single '\n').negate) :: items)).step?
        ('*' :: cs) = some (reading (.tree (piece '*') :: items), cs) :=
      repeat?_of_head?_ne hcs
    rw [atom_star]
    exact (run?_step hdot).trans (run?_step hrepeat)
  case neg =>
    by_cases h : Pattern.isMeta c = true
    · rw [atom_of_isMeta hstar h] at hn ⊢
      obtain ⟨m, rfl⟩ : ∃ m, n = m + 1 := ⟨n - 1, by simp at hn; omega⟩
      refine ⟨m, by simp at hn; omega, ?_⟩
      have hstep : (reading items).step? ('\\' :: c :: cs) =
          some (reading (.tree (piece c) :: items), cs) := by
        rw [piece, if_neg hstar]
        simp only [State.step?, reading, readEscape?_of_isMeta h]
        rfl
      exact run?_step hstep
    · rw [atom_of_not_isMeta h] at hn ⊢
      obtain ⟨m, rfl⟩ : ∃ m, n = m + 1 := ⟨n - 1, by simp at hn; omega⟩
      refine ⟨m, by simp at hn; omega, ?_⟩
      refine run?_step ?_
      rw [step?_of_not_isMeta h, piece, if_neg hstar]
      rfl

/-- A source is read up to its end, one piece for each character. -/
theorem run?_source (cs : List Char) {n : Nat} {items : List Item}
    (hn : (cs.flatMap atom ++ ['$']).length ≤ n) :
    (reading items).run? n (cs.flatMap atom ++ ['$']) =
      some (reading (.tree (.assert .textEnd) ::
        ((cs.map fun c => .tree (piece c)).reverse ++ items))) := by
  induction cs generalizing n items with
  | nil =>
      obtain ⟨n, rfl⟩ := Nat.exists_eq_add_of_le' hn
      have hstep : (reading items).step? ['$'] =
          some (reading (.tree (.assert .textEnd) :: items), []) := rfl
      refine (run?_step hstep).trans ?_
      cases n <;> rfl
  | cons c cs ih =>
      -- the characters of the first atom are read before the others
      rw [List.flatMap_cons, List.append_assoc] at hn ⊢
      obtain ⟨m, hm, hrun⟩ := run?_atom (head?_flatMap_atom_ne cs) hn
      calc (reading items).run? n (atom c ++ (cs.flatMap atom ++ ['$']))
          = (reading (.tree (piece c) :: items)).run? m (cs.flatMap atom ++ ['$']) := hrun
        _ = some (reading (.tree (.assert .textEnd) ::
              ((cs.map fun c => .tree (piece c)).reverse ++ .tree (piece c) :: items))) := ih hm
        _ = some (reading (.tree (.assert .textEnd) ::
              (((c :: cs).map fun c => .tree (piece c)).reverse ++ items))) := by
            rw [List.map_cons, List.reverse_cons, List.append_assoc]
            rfl

/-- The parts that have been read make up the tree of the source. -/
theorem treeOf_source (cs : List Char) :
    Pattern.treeOf (.tree (.assert .textEnd) :: ((cs.map fun c => .tree (piece c)).reverse ++
      [.tree (.assert .textStart)])) = tree cs := by
  -- every item is a tree, so none of them is lost on the way
  have hpieces : ∀ f : Item → Option Pattern.Tree, (∀ t, f (.tree t) = some t) →
      (cs.map fun c => Item.tree (piece c)).filterMap f = cs.map piece := by
    intro f hf
    have hsome : (f ∘ fun c => Item.tree (piece c)) = some ∘ piece := funext fun c => hf (piece c)
    rw [List.filterMap_map, hsome, List.filterMap_eq_map]
  have hseq : ∀ ts : List Pattern.Tree, Pattern.Tree.ofSeq
      (.assert .textStart :: (ts ++ [.assert .textEnd])) =
        .seq (.assert .textStart :: (ts ++ [.assert .textEnd])) := by
    rintro (_ | ⟨t, ts⟩) <;> rfl
  rw [Pattern.treeOf, List.reverse_cons, List.reverse_append, List.reverse_reverse,
    List.filterMap_append, List.filterMap_append, tree, ← hseq, hpieces]
  · rfl
  · exact fun _ => rfl

/-- The regular expression of a source can always be read, whatever characters the source has. -/
theorem expression?_eq (source : String) :
    expression? source = some ⟨tree source.toList, 0, []⟩ := by
  have hlength : (patternText source).length = (source.toList.flatMap atom ++ ['$']).length + 1 := by
    rw [← String.length_toList, toList_patternText, List.cons_append, List.length_cons]
  have hcaret : (reading []).step? ('^' :: (source.toList.flatMap atom ++ ['$'])) =
      some (reading [.tree (.assert .textStart)], source.toList.flatMap atom ++ ['$']) := rfl
  have hrun : (reading [.tree (.assert .textStart)]).run? _ (source.toList.flatMap atom ++ ['$']) =
      some (reading _) := run?_source source.toList (Nat.le_refl _)
  rw [expression?, Pattern.parse?, toList_patternText, hlength]
  change (do let x ← (reading []).run? _ _; _) = _
  rw [List.cons_append, run?_step hcaret, hrun, ← treeOf_source]
  rfl

end Reading

/-! ## The instructions of the regular expression -/

section Building

open Pattern (CharSet Program)
open Pattern.Program (build buildSeq)

/-- A set of one character holds that character. -/
theorem holds_single {c d : Char} : (CharSet.single c).holds d.toNat = true ↔ d = c := by
  rw [← Char.toNat_inj]
  simp only [CharSet.single, CharSet.range, CharSet.holds, List.any_cons, List.any_nil,
    Bool.or_false, Bool.and_eq_true, decide_eq_true_eq]
  omega

/-- All characters but the line feed are those of a line. -/
theorem holds_line {c : Char} :
    (CharSet.single '\n').negate.holds c.toNat = true ↔ c ≠ '\n' := by
  have hranges : (CharSet.single '\n').negate = ⟨[(0, 9), (11, CharSet.maxCode)]⟩ := rfl
  have hmax : c.toNat ≤ CharSet.maxCode := by
    have hvalid := c.valid
    simp only [UInt32.isValidChar, Nat.isValidChar] at hvalid
    simp only [CharSet.maxCode, Char.toNat]
    omega
  have hfeed : '\n'.toNat = 10 := rfl
  rw [hranges, Ne, ← Char.toNat_inj, hfeed]
  simp only [CharSet.holds, List.any_cons, List.any_nil, Bool.or_false, Bool.or_eq_true,
    Bool.and_eq_true, decide_eq_true_eq]
  omega

/-- The instructions of one program are those of another at the same places. -/
def Extends (larger code : Array Instruction) : Prop :=
  ∀ (i : Nat) (x : Instruction), code[i]? = some x → larger[i]? = some x

theorem Extends.push {larger code : Array Instruction} {x : Instruction}
    (h : Extends larger (code.push x)) : Extends larger code := by
  intro i y hi
  have hlt := (Array.getElem?_eq_some_iff.1 hi).1
  refine h i y ?_
  rw [Array.getElem?_push_lt hlt]
  rwa [Array.getElem?_eq_getElem hlt] at hi

theorem Extends.at_size {larger code : Array Instruction} {x : Instruction}
    (h : Extends larger (code.push x)) : larger[code.size]? = some x :=
  h _ _ Array.getElem?_push_size

/-- A character becomes one instruction, which takes it. -/
theorem build_char {c : Char} (h : c ≠ '*') (code : Array Instruction) (next : Nat) :
    build (piece c) code next = (code.push (.take (.single c) next), code.size) := by
  rw [piece, if_neg h, build]
  rfl

/-- A star becomes a choice between what follows and a character of the line, with which it starts
again. -/
theorem build_star (code : Array Instruction) (next : Nat) :
    build (piece '*') code next =
      ((code.push (.split (code.size + 1) next)).push
        (.take (CharSet.single '\n').negate code.size), code.size) := by
  have hset : ((code.push .accept).push (Instruction.take (CharSet.single '\n').negate
      code.size)).setIfInBounds code.size (.split (code.size + 1) next) =
      (code.push (.split (code.size + 1) next)).push (.take (CharSet.single '\n').negate
        code.size) := by
    refine Array.ext_getElem? fun i => ?_
    simp only [Array.getElem?_setIfInBounds, Array.getElem?_push, Array.size_push]
    grind
  rw [← hset, piece, if_pos rfl, build]
  simp [Pattern.Program.loop, Pattern.Program.emit, build, Pattern.Tree.isSolid,
    Pattern.Program.choice]

theorem buildSeq_textEnd (code : Array Instruction) (next : Nat) :
    buildSeq [.assert .textEnd] code next = (code.push (.check .textEnd next), code.size) := by
  simp [buildSeq, build, Pattern.Program.emit]

variable {larger code : Array Instruction} {next : Nat}

/-- The instruction of a character leads on behind that character. -/
theorem leads_build_char {c : Char} (h : c ≠ '*')
    (hlarger : Extends larger (build (piece c) code next).1) {before : Option Char}
    {cs : List Char} :
    Leads larger (build (piece c) code next).2 before cs ↔
      ∃ rest, cs = c :: rest ∧ Leads larger next (some c) rest := by
  rw [build_char h] at hlarger ⊢
  rw [Pattern.leads_take hlarger.at_size]
  constructor
  · rintro ⟨d, rest, rfl, hd, hleads⟩
    obtain rfl := holds_single.1 hd
    exact ⟨rest, rfl, hleads⟩
  · rintro ⟨rest, rfl, hleads⟩
    exact ⟨c, rest, rfl, holds_single.2 rfl, hleads⟩

/-- Where the instructions behind a star lead to a match just in case that a text fits, so do those
of the star in case that some remainder fits. -/
theorem leads_build_star (hlarger : Extends larger (build (piece '*') code next).1)
    {p : List Char → Bool} (hnext : ∀ before cs, Leads larger next before cs ↔ p cs = true)
    {before : Option Char} {cs : List Char} :
    Leads larger (build (piece '*') code next).2 before cs ↔ fitsSome p cs = true := by
  rw [build_star] at hlarger ⊢
  have htake := hlarger.at_size
  rw [Array.size_push] at htake
  -- by induction on the text: the star stops here or takes one more character
  induction cs generalizing before with
  | nil =>
      rw [Pattern.leads_split hlarger.push.at_size, Pattern.leads_take htake, hnext, fitsSome]
      simp
  | cons c cs ih =>
      rw [Pattern.leads_split hlarger.push.at_size, Pattern.leads_take htake, hnext, fitsSome,
        Bool.or_eq_true, Bool.and_eq_true, bne_iff_ne, ← holds_line, or_comm]
      refine or_congr Iff.rfl ?_
      constructor
      · rintro ⟨d, rest, hcs, hd, h⟩
        obtain ⟨rfl, rfl⟩ := List.cons.inj hcs
        exact ⟨hd, ih.1 h⟩
      · rintro ⟨hc, h⟩
        exact ⟨c, cs, rfl, hc, ih.2 h⟩

/-- A program with the part for a character extends the one without it. -/
theorem Extends.build {c : Char} (h : Extends larger (build (piece c) code next).1) :
    Extends larger code := by
  by_cases hstar : c = '*'
  · subst hstar
    rw [build_star] at h
    exact h.push.push
  · rw [build_char hstar] at h
    exact h.push

/-- The instructions of a source lead from its first piece to a match just in case that the text
fits. -/
theorem leads_buildSeq (source : List Char)
    (hlarger : Extends larger
      (buildSeq (source.map piece ++ [.assert .textEnd]) code next).1)
    (hnext : ∀ before, Leads larger next before []) {before : Option Char} {cs : List Char} :
    Leads larger (buildSeq (source.map piece ++ [.assert .textEnd]) code next).2 before cs ↔
      fits source cs = true := by
  induction source generalizing before cs with
  | nil =>
      rw [List.map_nil, List.nil_append, buildSeq_textEnd] at hlarger ⊢
      refine (Pattern.leads_check hlarger.at_size).trans ?_
      cases cs with
      | nil => exact iff_of_true ⟨rfl, hnext before⟩ rfl
      | cons c cs => exact iff_of_false (by simp [Pattern.Assertion.holds]) (by simp [fits])
  -- the code of what follows is part of the whole as well
  | cons c source ih =>
      rw [List.map_cons, List.cons_append, buildSeq] at hlarger ⊢
      have hrest : ∀ before cs, Leads larger _ before cs ↔ fits source cs = true :=
        fun _ _ => ih hlarger.build
      by_cases hstar : c = '*'
      · subst hstar
        exact leads_build_star hlarger hrest
      · rw [leads_build_char hstar hlarger]
        cases cs with
        | nil => exact iff_of_false (by simp) (by simp [fits])
        | cons d cs =>
            rw [show fits (c :: source) (d :: cs) = (c = d && fits source cs) by simp [fits],
              Bool.and_eq_true, decide_eq_true_iff, ← hrest (some c) cs]
            constructor
            · rintro ⟨rest, hcs, h⟩
              obtain ⟨rfl, rfl⟩ := List.cons.inj hcs
              exact ⟨rfl, h⟩
            · rintro ⟨rfl, h⟩
              exact ⟨cs, rfl, h⟩

/-- Around the pieces of a source stand the notes of the match and the check of its start. -/
theorem ofTree_tree (source : List Char) {r : Array Instruction × Nat}
    (hr : r = buildSeq (source.map piece ++ [.assert .textEnd]) #[.accept, .note 1 0] 1) :
    Program.ofTree (tree source) 0 =
      ⟨(r.1.push (.check .textStart r.2)).push (.note 0 r.1.size), r.1.size + 1, 2⟩ := by
  subst hr
  simp [Program.ofTree, tree, build, buildSeq, Pattern.Program.emit]

theorem Extends.refl (code : Array Instruction) : Extends code code :=
  fun _ _ h => h

/-- A program with the parts for a source extends the one without them. -/
theorem Extends.buildSeq (source : List Char)
    (h : Extends larger (buildSeq (source.map piece ++ [.assert .textEnd]) code next).1) :
    Extends larger code := by
  induction source with
  | nil =>
      rw [List.map_nil, List.nil_append, buildSeq_textEnd] at h
      exact h.push
  | cons c source ih =>
      rw [List.map_cons, List.cons_append, Pattern.Program.buildSeq] at h
      exact ih h.build

/-- The instructions of the regular expression of a source lead from the start of a text to a match
just in case that the text fits, and from no later place. -/
theorem leads_start (source : List Char) {before : Option Char} {cs : List Char} :
    Leads (Program.ofTree (tree source) 0).code (Program.ofTree (tree source) 0).start before cs ↔
      before = none ∧ fits source cs = true := by
  -- the pieces stand behind the two instructions that every program starts with
  generalize hr : Pattern.Program.buildSeq (source.map piece ++ [.assert .textEnd])
    #[.accept, .note 1 0] 1 = r
  rw [ofTree_tree source hr.symm]
  obtain ⟨larger, hlarger, heq⟩ : ∃ larger,
      Extends larger ((r.1.push (.check .textStart r.2)).push (.note 0 r.1.size)) ∧
        (r.1.push (.check .textStart r.2)).push (.note 0 r.1.size) = larger :=
    ⟨_, Extends.refl _, rfl⟩
  rw [heq]
  have hnote := hlarger.at_size
  rw [Array.size_push] at hnote
  have hpieces : Extends larger (Pattern.Program.buildSeq (source.map piece ++
    [.assert .textEnd]) #[.accept, .note 1 0] 1).1 := hr ▸ hlarger.push.push
  have hbase := hpieces.buildSeq
  -- what has been noted last accepts
  have hnext : ∀ before, Leads larger 1 before [] := fun before =>
    .note (hbase 1 _ rfl) (.accept (hbase 0 _ rfl))
  rw [Pattern.leads_note hnote, Pattern.leads_check hlarger.push.at_size, ← hr,
    leads_buildSeq source hpieces hnext]
  exact and_congr_left fun _ => Option.isNone_iff_eq_none

/-- The regular expression of a source matches a path just in case that the path fits the source,
whatever characters the two have. -/
theorem matches_source (source path : String) :
    (Pattern.ofExpression (patternText source) ⟨tree source.toList, 0, []⟩).matches path =
      fits source.toList path.toList := by
  rw [Bool.eq_iff_iff, Pattern.matches_iff]
  have hstart : ∀ before cs, Leads (Program.ofTree (tree source.toList) 0).code
      (Program.ofTree (tree source.toList) 0).start before cs ↔
        before = none ∧ fits source.toList cs = true := fun _ _ => leads_start source.toList
  -- behind the start there is no place for the first assertion
  have hlater : ∀ (c : Char) cs, ¬ Pattern.Finds (Program.ofTree (tree source.toList) 0) (some c) cs
    := by
    intro c cs h
    generalize hbefore : some c = before at h
    induction h generalizing c with
    | here h =>
        subst hbefore
        exact Option.some_ne_none c ((hstart _ _).1 h).1
    | @later _ d _ h ih => exact ih d rfl
  change Pattern.Finds (Program.ofTree (tree source.toList) 0) none path.toList ↔ _
  cases path.toList with
  | nil => rw [Pattern.finds_nil, hstart, and_iff_right rfl]
  | cons c cs => rw [Pattern.finds_cons, or_iff_left (hlater c cs), hstart, and_iff_right rfl]

end Building

/-! ## The size of the regular expression -/

/-- A star counts three ranges, and any other character one. -/
theorem weight_piece (c : Char) : (piece c).weight = if c = '*' then 3 else 1 := by
  unfold piece
  split
  · rfl
  · rfl

theorem depth_piece_le (c : Char) : (piece c).depth ≤ 1 := by
  unfold piece
  split
  · exact Nat.le_refl 1
  · exact Nat.zero_le 1

/-- A star counts three times, every other character once. -/
theorem weight_tree (cs : List Char) :
    (tree cs).weight = cs.length + 2 * cs.count '*' + 2 := by
  have hall : Pattern.Tree.weightAll (cs.map piece ++ [.assert .textEnd]) =
      cs.length + 2 * cs.count '*' + 1 := by
    induction cs with
    | nil => rfl
    | cons c cs ih =>
        -- the first piece adds its own weight
        have hfirst : Pattern.Tree.weightAll ((c :: cs).map piece ++ [.assert .textEnd]) =
            (piece c).weight + (cs.length + 2 * cs.count '*' + 1) := by
          rw [List.map_cons, List.cons_append, Pattern.Tree.weightAll, ih]
        rw [hfirst, weight_piece, List.length_cons, List.count_cons]
        by_cases hc : c = '*'
        · simp [hc]
          omega
        · simp [hc]
          omega
  calc (tree cs).weight
      = Pattern.Tree.weightAll
          (.assert .textStart :: (cs.map piece ++ [.assert .textEnd])) := rfl
    _ = 1 + (cs.length + 2 * cs.count '*' + 1) := by
        rw [Pattern.Tree.weightAll, hall, Pattern.Tree.weight]
    _ = cs.length + 2 * cs.count '*' + 2 := by omega

/-- The tree of a source is not nested, stars aside. -/
theorem depth_tree_le (cs : List Char) : (tree cs).depth ≤ 2 := by
  have hall : Pattern.Tree.depthAll (cs.map piece ++ [.assert .textEnd]) ≤ 1 := by
    induction cs with
    | nil => exact Nat.zero_le 1
    | cons c cs ih =>
        rw [List.map_cons, List.cons_append, Pattern.Tree.depthAll]
        exact Nat.max_le.2 ⟨depth_piece_le c, ih⟩
  rw [tree, Pattern.Tree.depth, Pattern.Tree.depthAll, Pattern.Tree.depth]
  omega

/-- A rule can be looked up unless its source has stars and is too large. -/
theorem isReadable_iff {source : String} :
    isReadable source = true ↔
      ('*' ∈ source.toList →
        source.toList.length + 2 * source.toList.count '*' + 2 ≤ Pattern.maxWeight) := by
  have hdepth : (tree source.toList).depth ≤ Pattern.maxNesting :=
    Nat.le_trans (depth_tree_le _) (by decide)
  have hmodest : (⟨tree source.toList, 0, []⟩ : Pattern.Expression).isModest =
      decide (source.toList.length + 2 * source.toList.count '*' + 2 ≤ Pattern.maxWeight) := by
    rw [Pattern.Expression.isModest, weight_tree, decide_eq_true hdepth, Bool.true_and]
  rw [isReadable, isStarred, expression?_eq, Option.any_some, hmodest, Bool.or_eq_true,
    decide_eq_true_iff]
  by_cases hstar : '*' ∈ source.toList
  · simp [hstar]
  · simp [hstar]

end Source
end Recast
