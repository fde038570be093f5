import Recast.Json.Printer
import Recast.Json.Written

/-!
# Lexed — the tokens of values on one line

The characters that are printed for a value are read as the tokens of one document, the one that is
printed for the value: `Json.tokens?_chars`.  A numeral is only over where the next character is none
of its own, so a list of characters is either *lexed*, with a numeral at its end that may go on, or
*passed*, with nothing left open behind it.

Numbers that are not whole are left out.
-/

namespace Recast
namespace Json

/-! ## Documents that are printed -/

/-- The control characters that have a short escape. -/
def shortEscapes : List Char :=
  ['\x08', '\t', '\n', '\x0c', '\r']

/-- The piece as which a character is printed: most control characters are given by their numbers. -/
def quotedPiece (c : Char) : Piece :=
  if c.toNat < 0x20 ∧ c ∉ shortEscapes then .unit c.toNat else .char c

mutual
def whole : Json → Bool
  | .number (.float _) => false
  | .array items => wholeItems items
  | .object members => wholeMembers members
  | _ => true

def wholeItems : List Json → Bool
  | [] => true
  | v :: rest => whole v && wholeItems rest

def wholeMembers : List (String × Json) → Bool
  | [] => true
  | m :: rest => wholeMember m && wholeMembers rest

def wholeMember : String × Json → Bool
  | (_, v) => whole v
end

mutual
/-- The document that is printed for a value. -/
def document : Json → Written
  | .null => .null
  | .bool b => .bool b
  | .number n => written (.number n)
  | .string s => .text (s.toList.map quotedPiece)
  | .array items => .array (itemsDocument items)
  | .object members => .object (membersDocument members)

def itemsDocument : List Json → List Written
  | [] => []
  | v :: rest => document v :: itemsDocument rest

def membersDocument : List (String × Json) → List (List Piece × Written)
  | [] => []
  | m :: rest => memberDocument m :: membersDocument rest

def memberDocument : String × Json → List Piece × Written
  | (k, v) => (k.toList.map quotedPiece, document v)
end

mutual
def Written.tokens : Written → List Token
  | .null => [.null]
  | .bool b => [.bool b]
  | .number x => [.number x]
  | .text ps => [.text ps]
  | .array items => .openArray :: itemsTokens items ++ [.closeArray]
  | .object members => .openObject :: membersTokens members ++ [.closeObject]
  | .tooDeep => []

def Written.itemsTokens : List Written → List Token
  | [] => []
  | [w] => tokens w
  | w :: rest => tokens w ++ .comma :: itemsTokens rest

def Written.membersTokens : List (List Piece × Written) → List Token
  | [] => []
  | [m] => memberTokens m
  | m :: rest => memberTokens m ++ .comma :: membersTokens rest

def Written.memberTokens : List Piece × Written → List Token
  | (k, w) => .text k :: .colon :: tokens w
end

/-! ## Reading characters -/

/-- The tokens `done` have been read as soon as the next character is none of the last of them. -/
inductive Lexer.Closed : Lexer → List Token → Prop where
  | between (done : List Token) : Closed ⟨done, .between⟩ done
  | numeral {done : List Token} {part : NumeralPart} {x : Numeral} (h : part.finish? = some x) :
      Closed ⟨done, .numeral part⟩ (.number x :: done)

/-- Characters are read as tokens, of which the last one may be a numeral that goes on. -/
def Lexed (cs : List Char) (ts : List Token) : Prop :=
  ∀ done, ∃ x, cs.foldlM Lexer.step? ⟨done, .between⟩ = some x ∧ x.Closed (ts.reverse ++ done)

/-- Characters are read as tokens, and what stands behind them starts the next one. -/
def Passed (cs : List Char) (ts : List Token) : Prop :=
  ∀ done, cs.foldlM Lexer.step? ⟨done, .between⟩ = some ⟨ts.reverse ++ done, .between⟩

theorem Passed.lexed {cs : List Char} {ts : List Token} (h : Passed cs ts) : Lexed cs ts :=
  fun done => ⟨_, h done, .between _⟩

/-- Characters behind which a token starts can be followed by any others. -/
theorem Passed.append_lexed {cs cs' : List Char} {ts ts' : List Token} (h : Passed cs ts)
    (h' : Lexed cs' ts') : Lexed (cs ++ cs') (ts ++ ts') := by
  intro done
  obtain ⟨x, hx, hclosed⟩ := h' (ts.reverse ++ done)
  refine ⟨x, ?_, by simpa using hclosed⟩
  rw [List.foldlM_append, h done]
  exact hx

theorem Passed.append {cs cs' : List Char} {ts ts' : List Token} (h : Passed cs ts)
    (h' : Passed cs' ts') : Passed (cs ++ cs') (ts ++ ts') := by
  intro done
  rw [List.foldlM_append, h done]
  simpa using h' (ts.reverse ++ done)

/-- A character that is a token by itself and belongs to no numeral. -/
structure Separates (c : Char) (t : Token) : Prop where
  start : Lexer.start? c = some (some t, .between)
  ends : ∀ part, NumeralPart.next? c part = none

/-- A character that is a token by itself is read as that token. -/
theorem Separates.passed {c : Char} {t : Token} (h : Separates c t) : Passed [c] [t] := by
  intro done
  simp [Lexer.step?, Lexer.open?, h.start]

/-- A character that is a token by itself ends the token in front of it. -/
theorem Separates.step? {c : Char} {t : Token} (h : Separates c t) {x : Lexer} {done : List Token}
    (hx : x.Closed done) : x.step? c = some ⟨t :: done, .between⟩ := by
  cases hx with
  | between => simp [Lexer.step?, Lexer.open?, h.start]
  | numeral hpart => simp [Lexer.step?, Lexer.open?, h.start, h.ends, hpart]

/-- A separator ends the token in front of it. -/
theorem Lexed.separate {cs : List Char} {ts : List Token} (h : Lexed cs ts) {c : Char} {t : Token}
    (hc : Separates c t) : Passed (cs ++ [c]) (ts ++ [t]) := by
  intro done
  obtain ⟨x, hx, hclosed⟩ := h done
  rw [List.foldlM_append, hx]
  simpa using hc.step? hclosed

theorem Lexer.Closed.finish? {x : Lexer} {done : List Token} (h : x.Closed done) :
    x.finish? = some done.reverse := by
  cases h with
  | between => rfl
  | numeral hpart => simp [Lexer.finish?, hpart]

/-- A text has the tokens that its characters are read as. -/
theorem tokens?_of_lexed {cs : List Char} {ts : List Token} (h : Lexed cs ts) :
    tokens? cs = some ts := by
  obtain ⟨x, hx, hclosed⟩ := h []
  rw [tokens?, hx, Option.bind_some, hclosed.finish?]
  simp

/-! ## Texts -/

theorem hexDigit?_hexChar {n : Nat} (h : n < 16) : Text.hexDigit? (hexChar n) = some n := by
  have hall : ∀ m : Fin 16, Text.hexDigit? (hexChar m) = some m.val := by decide
  exact hall ⟨n, h⟩

/-- A character that is printed is read as its piece. -/
theorem foldlM_quotedChar (c : Char) (done : List Token) (ps : List Piece) :
    (quotedChar c).foldlM Lexer.step? ⟨done, .text ps⟩ =
      some ⟨done, .text (quotedPiece c :: ps)⟩ := by
  by_cases hshort : c ∈ '"' :: '\\' :: shortEscapes
  · simp only [shortEscapes, List.mem_cons, List.not_mem_nil, or_false] at hshort
    rcases hshort with rfl | rfl | rfl | rfl | rfl | rfl | rfl <;> rfl
  · simp only [shortEscapes, List.mem_cons, List.not_mem_nil, or_false, not_or] at hshort
    obtain ⟨hquote, hbackslash, hb, ht, hn, hf, hr⟩ := hshort
    by_cases hcontrol : c.toNat < 0x20
    · -- a control character is given by two hexadecimal digits
      have hhigh := hexDigit?_hexChar (n := c.toNat / 16) (by omega)
      have hlow := hexDigit?_hexChar (n := c.toNat % 16) (by omega)
      have hzero : Text.hexDigit? '0' = some 0 := rfl
      have hvalue : c.toNat / 16 * 16 + c.toNat % 16 = c.toNat := by omega
      simp [quotedChar, quotedPiece, shortEscapes, Lexer.step?, *]
    · simp [quotedChar, quotedPiece, Lexer.step?, *]

/-- The characters inside a text are read as their pieces. -/
theorem foldlM_quotedChars (cs : List Char) (done : List Token) (ps : List Piece) :
    (cs.flatMap quotedChar).foldlM Lexer.step? ⟨done, .text ps⟩ =
      some ⟨done, .text ((cs.map quotedPiece).reverse ++ ps)⟩ := by
  induction cs generalizing ps with
  | nil => rfl
  | cons c rest ih =>
      rw [List.flatMap_cons, List.foldlM_append, foldlM_quotedChar]
      simpa using ih (quotedPiece c :: ps)

/-- A quoted text is read as one token. -/
theorem passed_quoted (cs : List Char) : Passed (quoted cs) [.text (cs.map quotedPiece)] := by
  intro done
  have hopen : Lexer.step? ⟨done, .between⟩ '"' = some ⟨done, .text []⟩ := rfl
  rw [quoted, List.cons_append, List.foldlM_cons, hopen]
  simp only [Option.bind_eq_bind, Option.bind_some]
  rw [List.foldlM_append, foldlM_quotedChars]
  simp [Lexer.step?]

/-! ## Numerals -/

/-- Digits go on with a numeral that has started with one. -/
theorem foldlM_digits {cs : List Char} (h : ∀ c ∈ cs, c.isDigit = true) (done : List Token)
    (negative : Bool) (ds : List Char) :
    cs.foldlM Lexer.step? ⟨done, .numeral (.whole negative ds)⟩ =
      some ⟨done, .numeral (.whole negative (cs.reverse ++ ds))⟩ := by
  induction cs generalizing ds with
  | nil => rfl
  | cons c rest ih =>
      obtain ⟨hc, hrest⟩ := List.forall_mem_cons.1 h
      simpa [Lexer.step?, NumeralPart.next?, hc] using ih hrest (c :: ds)

/-- A number other than zero has no zero in front. -/
theorem head?_toDigits {n : Nat} (h : 0 < n) : (Nat.toDigits 10 n).head? ≠ some '0' := by
  induction n using Nat.strongRecOn with
  | ind n ih =>
      -- of several digits the first is that of the number without its last
      by_cases hsmall : n < 10
      · have hall : ∀ m : Fin 10, 0 < m.val → (some (Nat.digitChar m)) ≠ some '0' := by decide
        rw [Nat.toDigits_of_lt_base hsmall]
        exact hall ⟨n, hsmall⟩ h
      · have hfront := ih (n / 10) (by omega) (by omega)
        rw [Nat.toDigits_of_base_le (by omega) (by omega)]
        cases hds : Nat.toDigits 10 (n / 10) with
        | nil => exact absurd hds Nat.toDigits_ne_nil
        | cons c rest =>
            rw [hds] at hfront
            exact hfront

/-- The first digit of a number starts a numeral, and the others go on with it. -/
theorem foldlM_toDigits {n : Nat} (h : 0 < n) (done : List Token) (negative : Bool) {x : Lexer}
    (hx : ∀ c, c ≠ '0' → c.isDigit = true →
      x.step? c = some ⟨done, .numeral (.whole negative [c])⟩) :
    (Nat.toDigits 10 n).foldlM Lexer.step? x =
      some ⟨done, .numeral (.whole negative (Nat.toDigits 10 n).reverse)⟩ := by
  have hdigits : ∀ c ∈ Nat.toDigits 10 n, c.isDigit = true := fun c hc =>
    Nat.isDigit_of_mem_toDigits (by omega) (by omega) hc
  have hhead := head?_toDigits h
  cases hds : Nat.toDigits 10 n with
  | nil => exact absurd hds Nat.toDigits_ne_nil
  | cons c rest =>
      rw [hds] at hdigits hhead
      obtain ⟨hc, hrest⟩ := List.forall_mem_cons.1 hdigits
      have hfirst := hx c (by simpa using hhead) hc
      rw [List.foldlM_cons, hfirst]
      simpa using foldlM_digits hrest done negative [c]

theorem start?_digit {c : Char} (hzero : c ≠ '0') (hdigit : c.isDigit = true) :
    Lexer.start? c = some (none, .numeral (.whole false [c])) := by
  have hall : ∀ m : Fin 10, Char.ofNat (48 + m) ≠ '0' → Lexer.start? (Char.ofNat (48 + m)) =
      some (none, .numeral (.whole false [Char.ofNat (48 + m)])) := by decide
  simp only [Char.isDigit, Bool.and_eq_true, decide_eq_true_eq] at hdigit
  obtain ⟨hlow, hhigh⟩ := hdigit
  have hlow : 48 ≤ c.toNat := hlow
  have hhigh : c.toNat ≤ 57 := hhigh
  have hc : Char.ofNat (48 + (c.toNat - 48)) = c := by
    rw [Nat.add_sub_cancel' hlow, Char.ofNat_toNat]
  have hthis := hall ⟨c.toNat - 48, by omega⟩
  simp only [hc] at hthis
  exact hthis hzero

/-- A whole number is read as its numeral. -/
theorem lexed_integer (n : Int) : Lexed (Number.integer n).chars [.number (.ofInt n)] := by
  intro done
  rcases Int.lt_trichotomy n 0 with hn | rfl | hn
  · -- behind the sign the digits are read as those of the absolute value
    have hdigits := foldlM_toDigits (n := n.natAbs) (by omega) done true
      (x := ⟨done, .numeral .sign⟩) fun c hzero hdigit => by
        simp [Lexer.step?, NumeralPart.next?, hzero, hdigit]
    have hfinish : (NumeralPart.whole true (Nat.toDigits 10 n.natAbs).reverse).finish? =
        some (.ofInt n) := by
      simp [NumeralPart.finish?, Numeral.ofInt, hn]
    refine ⟨_, ?_, .numeral hfinish⟩
    rw [Number.chars, if_pos hn]
    exact hdigits
  · exact ⟨_, rfl, .numeral rfl⟩
  · have hdigits := foldlM_toDigits (n := n.natAbs) (by omega) done false
      (x := ⟨done, .between⟩) fun c hzero hdigit => by
        simp [Lexer.step?, Lexer.open?, start?_digit hzero hdigit]
    have hsign : ¬ n < 0 := by omega
    have hfinish : (NumeralPart.whole false (Nat.toDigits 10 n.natAbs).reverse).finish? =
        some (.ofInt n) := by
      simp [NumeralPart.finish?, Numeral.ofInt, hsign]
    refine ⟨_, ?_, .numeral hfinish⟩
    rw [Number.chars, if_neg hsign]
    exact hdigits

/-! ## Values -/

theorem separates_comma : Separates ',' .comma where
  start := rfl
  ends := by intro part; cases part <;> rfl

theorem separates_closeArray : Separates ']' .closeArray where
  start := rfl
  ends := by intro part; cases part <;> rfl

theorem separates_closeObject : Separates '}' .closeObject where
  start := rfl
  ends := by intro part; cases part <;> rfl

/-- A word is read as one token. -/
theorem passed_word {cs : List Char} {t : Token}
    (h : ∀ done, cs.foldlM Lexer.step? ⟨done, .between⟩ = some ⟨t :: done, .between⟩) :
    Passed cs [t] := h

-- along the printed characters: values, items up to the closing bracket, and members alike
mutual
/-- The text of a value is read as the tokens of its document. -/
theorem lexed_value (v : Json) (h : v.whole = true) : Lexed v.chars v.document.tokens := by
  -- words and texts are read at once; behind a bracket the lemmas on members go on
  cases v with
  | null => exact (passed_word fun done => rfl).lexed
  | bool b =>
      cases b with
      | true => exact (passed_word fun done => rfl).lexed
      | false => exact (passed_word fun done => rfl).lexed
  | number n =>
      cases n with
      | integer n => exact lexed_integer n
      | float bits => cases h
  | string s => exact (passed_quoted s.toList).lexed
  | array items =>
      have hopen : Passed ['['] [.openArray] := fun done => rfl
      exact (hopen.append (passed_items items h)).lexed
  | object members =>
      have hopen : Passed ['{'] [.openObject] := fun done => rfl
      exact (hopen.append (passed_members members h)).lexed

/-- Printed items are read as their tokens, up to the end of the array. -/
theorem passed_items (items : List Json) (h : wholeItems items = true) :
    Passed (itemsChars items ++ [']']) (Written.itemsTokens (itemsDocument items) ++ [.closeArray]) := by
  match items with
  | [] => exact separates_closeArray.passed
  | [v] =>
      have hv : v.whole = true := by simpa [wholeItems] using h
      exact (lexed_value v hv).separate separates_closeArray
  | v :: w :: rest =>
      rw [wholeItems, Bool.and_eq_true] at h
      have hfirst := (lexed_value v h.1).separate separates_comma
      have hrest := passed_items (w :: rest) h.2
      simpa [itemsChars, itemsDocument, Written.itemsTokens] using hfirst.append hrest

/-- Printed members are read as their tokens, up to the end of the object. -/
theorem passed_members (members : List (String × Json)) (h : wholeMembers members = true) :
    Passed (membersChars members ++ ['}'])
      (Written.membersTokens (membersDocument members) ++ [.closeObject]) := by
  match members with
  | [] => exact separates_closeObject.passed
  | [m] =>
      have hm : wholeMember m = true := by simpa [wholeMembers] using h
      exact (lexed_member m hm).separate separates_closeObject
  | m :: n :: rest =>
      rw [wholeMembers, Bool.and_eq_true] at h
      have hfirst := (lexed_member m h.1).separate separates_comma
      have hrest := passed_members (n :: rest) h.2
      simpa [membersChars, membersDocument, Written.membersTokens] using hfirst.append hrest

theorem lexed_member (m : String × Json) (h : wholeMember m = true) :
    Lexed (memberChars m) (Written.memberTokens (memberDocument m)) := by
  obtain ⟨k, v⟩ := m
  have hcolon : Passed [':'] [.colon] := fun done => rfl
  have hkey := (passed_quoted k.toList).append hcolon
  simpa [memberChars, memberDocument, Written.memberTokens] using
    hkey.append_lexed (lexed_value v h)
end

/-- The printed characters of a value are the tokens of the document that is printed for it. -/
theorem tokens?_chars {v : Json} (h : v.whole = true) : tokens? v.chars = some v.document.tokens :=
  tokens?_of_lexed (lexed_value v h)

end Json
end Recast
