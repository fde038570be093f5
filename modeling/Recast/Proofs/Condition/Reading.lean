import Mathlib.Data.List.TakeWhile
import Recast.Proofs.Condition.Grammar
import Recast.Proofs.Result

/-!
# Reading — conditions from characters

A text spells a list of signs and strings if they stand in it one after the other with nothing but
blanks around them.  A word is a whole identifier, and a string is enclosed in quotation marks that
do not occur in it.  The reader takes the characters of a text just as it takes the list that they
spell: `exists_move_of_step` and `step_of_move` for one step, `run_eq_ok_iff` for all of them.  The
main statement is `ofText_eq_ok_iff`: a text is read exactly if it spells a list that the grammar
derives.
-/

namespace Recast
namespace Condition

/-! ## Spelling -/

inductive Token.Written : Token → List Char → Prop
  | sign (s : Sign) : Written (.sign s) s.text
  | string {q : Char} {body : List Char} : q = '"' ∨ q = '\'' → q ∉ body →
      Written (.string (String.ofList body)) (q :: body ++ [q])

/-- What may follow: a word ends where no identifier goes on. -/
def Token.EndsBefore : Token → List Char → Prop
  | .sign s, rest => s.isWord = true → ∀ c ∈ rest.head?, Unicode.isIdentifierPart c = false
  | .string _, _ => True

/-- A sign or a string stands at the start of a text, behind blanks; `rest` follows it. -/
def Token.Stands (t : Token) (cs rest : List Char) : Prop :=
  ∃ blanks text, (∀ c ∈ blanks, Text.isBlank c = true) ∧ t.Written text ∧ t.EndsBefore rest ∧
    cs = blanks ++ text ++ rest

/-- Signs and strings stand one after the other at the start of a text; `rest` follows them. -/
def Reads : List Char → List Token → List Char → Prop
  | cs, [], rest => cs = rest
  | cs, t :: ts, rest => ∃ mid, t.Stands cs mid ∧ Reads mid ts rest

/-- A text consists of signs and strings, with nothing but blanks around them. -/
def Spells (cs : List Char) (ts : List Token) : Prop :=
  ∃ rest, Reads cs ts rest ∧ ∀ c ∈ rest, Text.isBlank c = true

theorem reads_append {cs rest : List Char} {ts us : List Token} :
    Reads cs (ts ++ us) rest ↔ ∃ mid, Reads cs ts mid ∧ Reads mid us rest := by
  induction ts generalizing cs with
  | nil =>
      constructor
      · intro h
        exact ⟨cs, rfl, h⟩
      · rintro ⟨_, rfl, h⟩
        exact h
  | cons t ts ih =>
      constructor
      · rintro ⟨first, ht, h⟩
        -- the tokens behind the first one go on where it has ended
        rcases ih.1 h with ⟨mid, hts, hus⟩
        exact ⟨mid, ⟨first, ht, hts⟩, hus⟩
      · rintro ⟨mid, ⟨first, ht, hts⟩, hus⟩
        exact ⟨first, ht, ih.2 ⟨mid, hts, hus⟩⟩

/-! ## Blanks -/

theorem skipBlank_append {blanks : List Char} (cs : List Char) :
    (∀ c ∈ blanks, Text.isBlank c = true) → skipBlank (blanks ++ cs) = skipBlank cs :=
  List.dropWhile_append_of_pos

theorem skipBlank_cons {c : Char} (cs : List Char) :
    Text.isBlank c = false → skipBlank (c :: cs) = c :: cs := by
  intro h
  simp [skipBlank, h]

/-- Nothing is left just of blanks. -/
theorem skipBlank_eq_nil_iff {cs : List Char} :
    skipBlank cs = [] ↔ ∀ c ∈ cs, Text.isBlank c = true := by
  rw [skipBlank, List.dropWhile_eq_nil_iff]

/-- Nothing is written with a blank at its start. -/
theorem Token.Written.starts {t : Token} {text : List Char} :
    t.Written text → ∃ c more, text = c :: more ∧ Text.isBlank c = false := by
  intro h
  cases h with
  | sign s => cases s <;> exact ⟨_, _, rfl, by decide⟩
  | @string q body hq _ =>
      refine ⟨q, body ++ [q], rfl, ?_⟩
      rcases hq with rfl | rfl <;> decide

/-- A sign or a string stands behind blanks, and something follows it before which it ends. -/
theorem stands_iff {t : Token} {cs rest : List Char} :
    t.Stands cs rest ↔ ∃ text, t.Written text ∧ t.EndsBefore rest ∧
      skipBlank cs = text ++ rest := by
  constructor
  · rintro ⟨blanks, text, hblanks, hwritten, hends, rfl⟩
    rcases hwritten.starts with ⟨c, more, rfl, hc⟩
    refine ⟨_, hwritten, hends, ?_⟩
    rw [List.append_assoc, skipBlank_append _ hblanks]
    exact skipBlank_cons _ hc
  · rintro ⟨text, hwritten, hends, hskip⟩
    refine ⟨cs.takeWhile Text.isBlank, text, ?_, hwritten, hends, ?_⟩
    · exact List.all_eq_true.1 List.all_takeWhile
    · rw [List.append_assoc, ← hskip]
      exact List.takeWhile_append_dropWhile.symm

/-- What stands at the start of a text leaves less of it. -/
theorem Token.Stands.length_lt {t : Token} {cs rest : List Char} :
    t.Stands cs rest → rest.length < cs.length := by
  rintro ⟨blanks, text, -, hwritten, -, rfl⟩
  rcases hwritten.starts with ⟨c, more, rfl, -⟩
  simp only [List.length_append, List.length_cons]
  omega

/-- Reading makes a text no longer. -/
theorem Reads.length_le {cs rest : List Char} {ts : List Token} :
    Reads cs ts rest → rest.length ≤ cs.length := by
  intro h
  induction ts generalizing cs with
  | nil => exact Nat.le_of_eq (congrArg List.length h.symm)
  | cons t ts ih =>
      rcases h with ⟨mid, ht, h⟩
      exact Nat.le_trans (ih h) (Nat.le_of_lt ht.length_lt)

/-! ## Words, strings and comparisons -/

/-- A word is an identifier. -/
theorem Sign.text_of_isWord {o : Sign} : o.isWord = true →
    ∃ c more, o.text = c :: more ∧ Unicode.isIdentifierStart c = true ∧
      ∀ d ∈ more, Unicode.isIdentifierPart d = true := by
  intro h
  cases o <;> first | exact ⟨_, _, rfl, by decide, List.all_eq_true.1 (by decide)⟩ | cases h

/-- A word is read where it stands and no identifier goes on. -/
theorem readWord_eq_iff {o : Sign} {cs rest : List Char} : o.isWord = true →
    (readWord cs = (o.text, rest) ↔ cs = o.text ++ rest ∧ (Token.sign o).EndsBefore rest) := by
  intro hword
  rcases Sign.text_of_isWord hword with ⟨c, more, htext, hstart, hpart⟩
  rw [htext]
  constructor
  · intro h
    cases cs with
    | nil => cases h
    -- the first character decides whether a word starts here
    | cons d ds =>
        rw [readWord] at h
        split at h
        · simp only [Prod.mk.injEq, List.cons.injEq] at h
          rcases h with ⟨⟨rfl, rfl⟩, rfl⟩
          refine ⟨?_, fun _ e he => ?_⟩
          · exact congrArg (d :: ·) List.takeWhile_append_dropWhile.symm
          · have hnot := List.head?_dropWhile_not Unicode.isIdentifierPart ds
            rw [he] at hnot
            exact hnot
        · cases h
  · rintro ⟨rfl, hends⟩
    -- the word ends where the rest begins
    have hnone : ∀ e ∈ rest.head?, Unicode.isIdentifierPart e = false := hends hword
    have htake : rest.takeWhile Unicode.isIdentifierPart = [] := by
      cases rest with
      | nil => rfl
      | cons e es => simp [hnone e rfl]
    have hdrop : rest.dropWhile Unicode.isIdentifierPart = rest := by
      cases rest with
      | nil => rfl
      | cons e es => simp [hnone e rfl]
    rw [List.cons_append, readWord, if_pos hstart, List.takeWhile_append_of_pos hpart,
      List.dropWhile_append_of_pos hpart, htake, hdrop, List.append_nil]

/-- A string is read just where one stands. -/
theorem readString_eq_ok_iff {cs rest : List Char} {s : String} :
    readString cs = .ok (s, rest) ↔ (Token.string s).Stands cs rest := by
  rw [stands_iff]
  constructor
  · intro h
    unfold readString at h
    cases hskip : skipBlank cs with
    | nil =>
        rw [hskip] at h
        cases h
    | cons q more =>
        rw [hskip] at h
        simp only at h
        split at h
        · rename_i hq
          cases hdrop : more.dropWhile (· != q) with
          | nil =>
              rw [hdrop] at h
              cases h
          | cons e tail =>
              rw [hdrop] at h
              cases h
              -- the string ends at the first mark like the one at its start
              have hmark : e = q := by
                have hnot := List.head?_dropWhile_not (· != q) more
                rw [hdrop] at hnot
                simpa using hnot
              have hbody : q ∉ more.takeWhile (· != q) := by
                intro hmem
                simpa using List.mem_takeWhile_imp hmem
              refine ⟨_, .string (by simpa using hq) hbody, trivial, ?_⟩
              have hsplit := List.takeWhile_append_dropWhile (p := (· != q)) (l := more)
              rw [hdrop, hmark] at hsplit
              simp [hsplit]
        · cases h
  · rintro ⟨text, hwritten, -, hskip⟩
    cases hwritten with
    | @string q body hq hbody =>
        have hall : ∀ c ∈ body, (c != q) = true := by
          intro c hc
          simpa using fun e : c = q => hbody (e ▸ hc)
        have htake : (body ++ q :: rest).takeWhile (· != q) = body := by
          rw [List.takeWhile_append_of_pos hall]
          simp
        have hdrop : (body ++ q :: rest).dropWhile (· != q) = q :: rest := by
          rw [List.dropWhile_append_of_pos hall]
          simp
        have htext : skipBlank cs = q :: (body ++ q :: rest) := by simpa using hskip
        have hmark : (q = '"' || q = '\'') = true := by simpa using hq
        simp only [readString, htext, hmark, hdrop, htake, if_true]

/-- An operator stands wherever its characters do. -/
theorem stands_operator {o : Sign} {cs rest : List Char} : o.isWord = false →
    skipBlank cs = o.text ++ rest → (Token.sign o).Stands cs rest := by
  intro ho hskip
  refine stands_iff.2 ⟨_, .sign o, fun hword => ?_, hskip⟩
  rw [ho] at hword
  cases hword

theorem skipBlank_of_stands {o : Sign} {cs rest : List Char} :
    (Token.sign o).Stands cs rest → skipBlank cs = o.text ++ rest ∧
      (Token.sign o).EndsBefore rest := by
  intro h
  rcases stands_iff.1 h with ⟨text, hwritten, hends, hskip⟩
  cases hwritten
  exact ⟨hskip, hends⟩

theorem stands_word_iff {o : Sign} {cs rest : List Char} : o.isWord = true →
    (readWord (skipBlank cs) = (o.text, rest) ↔ (Token.sign o).Stands cs rest) := by
  intro hword
  rw [readWord_eq_iff hword]
  constructor
  · rintro ⟨hskip, hends⟩
    exact stands_iff.2 ⟨_, .sign o, hends, hskip⟩
  · exact skipBlank_of_stands

/-- A comparison is read just where an operator and a string stand that make one. -/
theorem readComparison_eq_ok_iff {cs rest : List Char} {c : Condition} :
    readComparison cs = .ok (c, rest) ↔ ∃ o s mid, comparison? o s = some c ∧
      (Token.sign o).Stands cs mid ∧ (Token.string s).Stands mid rest := by
  constructor
  · intro h
    -- one case for each operator, in the order in which the reader looks for them
    unfold readComparison at h
    split at h
    · rename_i mid hskip
      obtain ⟨⟨s, tail⟩, hs, h⟩ := bind_eq_ok.1 h
      cases h
      exact ⟨.equals, s, mid, rfl, stands_operator rfl hskip, readString_eq_ok_iff.1 hs⟩
    · rename_i mid hskip
      obtain ⟨⟨s, tail⟩, hs, h⟩ := bind_eq_ok.1 h
      cases hp : Pattern.ofText? s with
      | none =>
          simp only [hp] at h
          cases h
      | some p =>
          simp only [hp] at h
          cases h
          exact ⟨.fits, s, mid, by simp [comparison?, hp], stands_operator rfl hskip,
            readString_eq_ok_iff.1 hs⟩
    · cases h
    · rename_i mid hskip
      obtain ⟨⟨s, tail⟩, hs, h⟩ := bind_eq_ok.1 h
      cases h
      exact ⟨.differs, s, mid, rfl, stands_operator rfl hskip, readString_eq_ok_iff.1 hs⟩
    · cases h
    · cases hword : readWord (skipBlank cs) with
      | mk word mid =>
          simp only [hword] at h
          split at h
          · rename_i heq
            obtain ⟨⟨s, tail⟩, hs, h⟩ := bind_eq_ok.1 h
            cases h
            rw [heq] at hword
            exact ⟨.contains, s, mid, rfl, (stands_word_iff rfl).1 hword,
              readString_eq_ok_iff.1 hs⟩
          · cases h
  · rintro ⟨o, s, mid, hc, ho, hs⟩
    have hstring := readString_eq_ok_iff.2 hs
    rcases skipBlank_of_stands ho with ⟨hskip, -⟩
    cases o with
    | equals =>
        obtain rfl := Option.some.inj hc
        have hskip' : skipBlank cs = '=' :: '=' :: mid := hskip
        simp only [readComparison, hskip', hstring]
        rfl
    | differs =>
        obtain rfl := Option.some.inj hc
        have hskip' : skipBlank cs = '!' :: '=' :: mid := hskip
        simp only [readComparison, hskip', hstring]
        rfl
    | fits =>
        have hskip' : skipBlank cs = '=' :: '~' :: mid := hskip
        obtain ⟨p, hp, rfl⟩ := Option.map_eq_some_iff.1 hc
        simp only [readComparison, hskip', hstring]
        simp [bind, Except.bind, hp]
        rfl
    | contains =>
        obtain rfl := Option.some.inj hc
        have hword := (stands_word_iff rfl).2 ho
        have hskip' : skipBlank cs = 'c' :: ("ontains".toList ++ mid) := hskip
        rw [hskip'] at hword
        unfold readComparison
        split <;> rename_i heq
        -- no word starts as the other operators do
        iterate 5 exact absurd (List.cons.inj (hskip'.symm.trans heq)).1 (by decide)
        simp only [hskip', hword, hstring]
        rfl
    | empty | value | not | and | or | opening | closing => cases hc

/-! ## Steps -/

/-- An operator stands behind blanks. -/
theorem reads_operator {o : Sign} {cs rest : List Char} : o.isWord = false →
    skipBlank cs = o.text ++ rest → Reads cs [.sign o] rest :=
  fun ho hskip => ⟨rest, stands_operator ho hskip, rfl⟩

/-- A step is a move. -/
theorem exists_move_of_step {x y : State} {cs rest : List Char} :
    step x (skipBlank cs) = .ok (y, rest) → ∃ ts, Move x ts y ∧ Reads cs ts rest := by
  intro h
  rcases x with ⟨l, outer, wants⟩
  cases wants with
  | true =>
      -- a value is wanted: a negation, a bracket or a word
      simp only [step, if_true] at h
      split at h
      · rename_i hskip
        cases h
        exact ⟨_, .not l outer, reads_operator rfl hskip⟩
      · rename_i hskip
        cases h
        exact ⟨_, .opening l outer, reads_operator rfl hskip⟩
      · cases hword : readWord (skipBlank cs) with
        | mk word mid =>
            simp only [hword] at h
            split at h
            · rename_i heq
              cases h
              rw [heq] at hword
              exact ⟨_, .empty l outer, rest, (stands_word_iff rfl).1 hword, rfl⟩
            · split at h
              · rename_i heq
                obtain ⟨⟨c, tail⟩, hc, h⟩ := bind_eq_ok.1 h
                cases h
                rw [heq] at hword
                rcases readComparison_eq_ok_iff.1 hc with ⟨o, s, mid', hcomp, ho, hs⟩
                exact ⟨_, .comparison l outer hcomp, mid, (stands_word_iff rfl).1 hword, mid', ho,
                  tail, hs, rfl⟩
              · cases h
  | false =>
      -- a value is there: an operator or the closing bracket
      simp only [step, Bool.false_eq_true, if_false] at h
      split at h
      · rename_i hskip
        cases h
        exact ⟨_, .and l outer, reads_operator rfl hskip⟩
      · cases h
      · rename_i hskip
        cases h
        exact ⟨_, .or l outer, reads_operator rfl hskip⟩
      · cases h
      · rename_i hskip
        split at h
        · rename_i around outer c hvalue
          cases h
          exact ⟨_, .closing l around outer hvalue, reads_operator rfl hskip⟩
        · cases h
      · cases h

theorem skipBlank_of_reads {o : Sign} {cs rest : List Char} :
    Reads cs [.sign o] rest → skipBlank cs = o.text ++ rest := by
  rintro ⟨mid, ho, rfl⟩
  exact (skipBlank_of_stands ho).1

/-- A word that begins an operand is looked at as a whole. -/
theorem step_word {o : Sign} {l : Level} {outer : List Level} {cs mid : List Char} :
    o.isWord = true → (Token.sign o).Stands cs mid →
      step ⟨l, outer, true⟩ (skipBlank cs) =
        (if o.text = "empty".toList then .ok (⟨l.operand .empty, outer, false⟩, mid)
        else if o.text = "value".toList then do
          let (c, tail) ← readComparison mid
          return (⟨l.operand c, outer, false⟩, tail)
        else .error ⟨skipBlank cs⟩) := by
  intro hword ho
  have hread := (stands_word_iff hword).2 ho
  rcases skipBlank_of_stands ho with ⟨hskip, -⟩
  rcases Sign.text_of_isWord hword with ⟨c, more, htext, hstart, -⟩
  rw [htext] at hskip
  -- no word starts with `!` or `(`, so the reader does not stop at an operator
  have hnot : ∀ d ds, Unicode.isIdentifierStart d = false → skipBlank cs ≠ d :: ds := by
    intro d ds hd heq
    rw [(List.cons.inj (hskip.symm.trans heq)).1, hd] at hstart
    cases hstart
  simp only [step, if_true]
  split
  · rename_i heq
    exact absurd heq (hnot _ _ (by decide))
  · rename_i heq
    exact absurd heq (hnot _ _ (by decide))
  · rw [hread]

/-- A move is a step. -/
theorem step_of_move {x y : State} {cs rest : List Char} {ts : List Token} :
    Move x ts y → Reads cs ts rest → step x (skipBlank cs) = .ok (y, rest) := by
  intro hmove h
  cases hmove with
  | not l outer | opening l outer | and l outer | or l outer =>
      rw [skipBlank_of_reads h]
      rfl
  | empty l outer =>
      rcases h with ⟨mid, ho, rfl⟩
      rw [step_word rfl ho]
      rfl
  | comparison l outer hc =>
      rcases h with ⟨mid, hvalue, mid', ho, tail, hs, rfl⟩
      rw [step_word rfl hvalue, readComparison_eq_ok_iff.2 ⟨_, _, mid', hc, ho, hs⟩]
      rfl
  | closing l around outer hvalue =>
      have hskip : skipBlank cs = ')' :: rest := skipBlank_of_reads h
      simp only [hskip, step, hvalue, Bool.false_eq_true, if_false]

/-! ## Runs -/

/-- A move takes something. -/
theorem Move.ne_nil {x y : State} {ts : List Token} : Move x ts y → ts ≠ [] := by
  intro h
  cases h <;> simp

/-- Where something stands, there is more than blanks, and it takes some of the text. -/
theorem Reads.starts {cs rest : List Char} {ts : List Token} : ts ≠ [] → Reads cs ts rest →
    (∃ c more, skipBlank cs = c :: more) ∧ rest.length < cs.length := by
  intro hne h
  cases ts with
  | nil => exact absurd rfl hne
  | cons t ts =>
      rcases h with ⟨mid, ht, h⟩
      rcases stands_iff.1 ht with ⟨text, hwritten, -, hskip⟩
      rcases hwritten.starts with ⟨c, more, rfl, -⟩
      exact ⟨⟨c, more ++ mid, hskip⟩, Nat.lt_of_le_of_lt h.length_le ht.length_lt⟩

/-- Behind a move reading goes on with what is left. -/
theorem run_of_move {x y : State} {cs rest : List Char} {ts : List Token} :
    Move x ts y → Reads cs ts rest → run x cs = run y rest := by
  intro hmove h
  rcases h.starts hmove.ne_nil with ⟨⟨c, more, hskip⟩, hlt⟩
  have hstep := step_of_move hmove h
  rw [hskip] at hstep
  rw [run, hskip]
  simp only [hstep, hlt, dite_true]

/-- A text is read to its end if it spells what the moves take up to a state in which reading may
end. -/
theorem run_eq_ok_iff {x : State} {cs : List Char} {c : Condition} :
    run x cs = .ok c ↔ ∃ ts y, Spells cs ts ∧ Moves x ts y ∧ y.Ends c := by
  constructor
  · intro h
    -- by induction on the run; only its end and its steps can have a result
    fun_induction run x cs with
    | case1 x cs hskip c' hvalue houter hwants =>
        obtain rfl := Except.ok.inj h
        exact ⟨[], x, ⟨cs, rfl, skipBlank_eq_nil_iff.1 hskip⟩, .nil x, hwants, houter, hvalue⟩
    | case2 => cases h
    | case3 => cases h
    | case4 x cs d more hskip y tail hstep _ ih =>
        rw [← hskip] at hstep
        rcases exists_move_of_step hstep with ⟨ts, hmove, hts⟩
        rcases ih h with ⟨us, z, ⟨rest, hus, hblank⟩, hmoves, hends⟩
        exact ⟨ts ++ us, z, ⟨rest, reads_append.2 ⟨tail, hts, hus⟩, hblank⟩, .cons hmove hmoves,
          hends⟩
    | case5 => cases h
  · rintro ⟨ts, y, hspells, hmoves, hends⟩
    induction hmoves generalizing cs with
    | nil x =>
        rcases hspells with ⟨rest, rfl, hblank⟩
        rcases hends with ⟨hwants, houter, hvalue⟩
        rw [run, skipBlank_eq_nil_iff.2 hblank]
        simp only [hwants, houter, hvalue]
    | cons hmove _ ih =>
        rcases hspells with ⟨rest, hreads, hblank⟩
        rcases reads_append.1 hreads with ⟨mid, hts, hus⟩
        rw [run_of_move hmove hts]
        exact ih ⟨rest, hus, hblank⟩ hends

/-- A text is read as a condition exactly if it spells a list that stands for the condition. -/
theorem ofText_eq_ok_iff (s : String) (c : Condition) :
    ofText s = .ok c ↔ ∃ ts, Spells s.toList ts ∧ Derives .or ts c := by
  rw [ofText, mapError_eq_ok, run_eq_ok_iff]
  simp only [derives_iff]
  constructor
  · rintro ⟨ts, y, hspells, hmoves, hends⟩
    exact ⟨ts, hspells, y, hmoves, hends⟩
  · rintro ⟨ts, hspells, y, hmoves, hends⟩
    exact ⟨ts, y, hspells, hmoves, hends⟩

end Condition
end Recast
