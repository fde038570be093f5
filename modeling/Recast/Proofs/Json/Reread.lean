import Recast.Proofs.Json.Built
import Recast.Proofs.OrderedMap

/-!
# Reread — values read back from their text

A value on one line is read as the same value if its numbers are whole, nothing in it is nested too
deep, and it is *tidy*: no key is repeated in an object, and whole numbers fit 64 bits.  Everything
that is read from a document is tidy, and no deeper than the document.

Main statements: `Json.parse?_compact`, `Json.tidy_of_value?`, `Json.depth_of_value?`.
-/

namespace Recast
namespace Json

/-! ## Depths -/

mutual
/-- The number of arrays and objects inside each other in a value. -/
def depth : Json → Nat
  | .array items => itemsDepth items + 1
  | .object members => membersDepth members + 1
  | _ => 0

def itemsDepth : List Json → Nat
  | [] => 0
  | v :: rest => max (depth v) (itemsDepth rest)

def membersDepth : List (String × Json) → Nat
  | [] => 0
  | m :: rest => max (memberDepth m) (membersDepth rest)

def memberDepth : String × Json → Nat
  | (_, v) => depth v
end

mutual
/-- What is printed is as deep as the value. -/
theorem depth_document (v : Json) : v.document.depth = v.depth := by
  cases v with
  | array items => rw [document, Written.depth, depth, itemsDepth_document items]
  | object members => rw [document, Written.depth, depth, membersDepth_document members]
  | number n => cases n <;> rfl
  | _ => rfl

theorem itemsDepth_document (items : List Json) :
    Written.itemsDepth (itemsDocument items) = itemsDepth items := by
  cases items with
  | nil => rfl
  | cons v rest =>
      rw [itemsDocument, Written.itemsDepth, itemsDepth, depth_document v, itemsDepth_document rest]

theorem membersDepth_document (members : List (String × Json)) :
    Written.membersDepth (membersDocument members) = membersDepth members := by
  cases members with
  | nil => rfl
  | cons m rest =>
      rw [membersDocument, Written.membersDepth, membersDepth, memberDepth_document m,
        membersDepth_document rest]

theorem memberDepth_document (m : String × Json) :
    Written.memberDepth (memberDocument m) = memberDepth m := by
  obtain ⟨k, v⟩ := m
  exact depth_document v
end

/-! ## From documents to values -/

mutual
/-- What can be read from a document: keys are not repeated, and whole numbers fit 64 bits. -/
def Tidy : Json → Prop
  | .number (.integer n) => -0x8000000000000000 ≤ n ∧ n ≤ (Numeral.largest : Int)
  | .array items => TidyItems items
  | .object members => (members.map Prod.fst).Nodup ∧ TidyMembers members
  | _ => True

def TidyItems : List Json → Prop
  | [] => True
  | v :: rest => Tidy v ∧ TidyItems rest

def TidyMembers : List (String × Json) → Prop
  | [] => True
  | m :: rest => TidyMember m ∧ TidyMembers rest

def TidyMember : String × Json → Prop
  | (_, v) => Tidy v
end

theorem decode?_unit {n : Nat} (h : n < 0xD800) (ps : List Piece) :
    Piece.decode? (.unit n :: ps) = (Piece.decode? ps).map (Char.ofNat n :: ·) := by
  rw [Piece.decode?.eq_def]
  simp [h]

/-- The pieces of printed characters stand for these characters. -/
theorem decode?_quotedPieces (cs : List Char) : Piece.decode? (cs.map quotedPiece) = some cs := by
  induction cs with
  | nil => rfl
  | cons c rest ih =>
      by_cases hcontrol : c.toNat < 0x20 ∧ c ∉ shortEscapes
      · have hunit : c.toNat < 0xD800 := by omega
        calc Piece.decode? ((c :: rest).map quotedPiece)
            = Piece.decode? (.unit c.toNat :: rest.map quotedPiece) := by
              rw [List.map_cons, quotedPiece, if_pos hcontrol]
          _ = some (Char.ofNat c.toNat :: rest) := by
              rw [decode?_unit hunit, ih, Option.map_some]
          _ = some (c :: rest) := by rw [Char.ofNat_toNat]
      · rw [List.map_cons, quotedPiece, if_neg hcontrol, Piece.decode?, ih]
        rfl

/-- A printed text stands for itself. -/
theorem decode?_quoted (s : String) : Written.decode? (s.toList.map quotedPiece) = some s := by
  simp [Written.decode?, decode?_quotedPieces]

/-- A whole number of 64 bits is read back. -/
theorem value?_ofInt {n : Int} (hlow : -0x8000000000000000 ≤ n)
    (hhigh : n ≤ (Numeral.largest : Int)) : (Numeral.ofInt n).value? = some (.integer n) := by
  -- the digits that are written are those of the absolute value
  have hdigits : (Nat.toDigits 10 n.natAbs).foldl (fun m c => m * 10 + Numeral.digit c) 0 =
      n.natAbs := by
    have hofDigits := Nat.ofDigitChars_toDigits (b := 10) (n := n.natAbs) (by omega) (by omega)
    unfold Nat.ofDigitChars at hofDigits
    simpa only [Nat.mul_comm, Numeral.digit] using hofDigits
  simp only [Numeral.largest] at hhigh
  by_cases hn : n < 0
  · have hpositive : 0 < n.natAbs ∧ n.natAbs ≤ 0x8000000000000000 := by omega
    have hvalue : -(n.natAbs : Int) = n := by omega
    unfold Numeral.ofInt
    generalize n.natAbs = m at hdigits hpositive hvalue ⊢
    simp [Numeral.value?, hdigits, hn, hpositive, hvalue]
  · have hfits : n.natAbs ≤ Numeral.largest := by
      simp only [Numeral.largest]
      omega
    have hvalue : (n.natAbs : Int) = n := by omega
    unfold Numeral.ofInt
    generalize n.natAbs = m at hdigits hfits hvalue ⊢
    simp [Numeral.value?, hdigits, hn, hfits, hvalue]

-- along a value, for which its document is printed
mutual
/-- A tidy value with whole numbers only is read back from what is printed. -/
theorem value?_document (v : Json) (hwhole : v.whole = true) (htidy : v.Tidy) :
    v.document.value? = some v := by
  cases v with
  | null => rfl
  | bool b => rfl
  | number n =>
      -- a number with a point is not whole
      cases n with
      | integer n =>
          rw [document, written, Written.value?, value?_ofInt htidy.1 htidy.2]
          rfl
      | float bits => cases hwhole
  | string s =>
      rw [document, Written.value?, decode?_quoted]
      rfl
  | array items =>
      rw [document, Written.value?, items?_document items hwhole htidy]
      rfl
  | object members =>
      rw [document, Written.value?, members?_document members hwhole htidy.2, Option.map_some,
        Assoc.ofList_of_nodup htidy.1]

/-- Tidy items are read back from what is printed. -/
theorem items?_document (items : List Json) (hwhole : wholeItems items = true)
    (htidy : TidyItems items) : Written.items? (itemsDocument items) = some items := by
  cases items with
  | nil => rfl
  | cons v rest =>
      rw [wholeItems, Bool.and_eq_true] at hwhole
      have hfirst := value?_document v hwhole.1 htidy.1
      have hrest := items?_document rest hwhole.2 htidy.2
      simp [itemsDocument, Written.items?, hfirst, hrest]

/-- Members with tidy values are read back from what is printed. -/
theorem members?_document (members : List (String × Json)) (hwhole : wholeMembers members = true)
    (htidy : TidyMembers members) :
    Written.members? (membersDocument members) = some members := by
  cases members with
  | nil => rfl
  | cons m rest =>
      rw [wholeMembers, Bool.and_eq_true] at hwhole
      have hfirst := member?_document m hwhole.1 htidy.1
      have hrest := members?_document rest hwhole.2 htidy.2
      simp [membersDocument, Written.members?, hfirst, hrest]

theorem member?_document (m : String × Json) (hwhole : wholeMember m = true)
    (htidy : TidyMember m) : Written.member? (memberDocument m) = some m := by
  obtain ⟨k, v⟩ := m
  have hv := value?_document v hwhole htidy
  simp [memberDocument, Written.member?, decode?_quoted, hv]
end

/-- A value on one line spells the document that is printed for it. -/
theorem spelled_compact {v : Json} (hwhole : v.whole = true) (hdepth : v.depth ≤ maxDepth) :
    v.document.Spelled v.compact where
  entire := Written.entire_of_depth _ (by rwa [depth_document])
  tokens := by rw [compact, String.toList_ofList, tokens?_chars hwhole]

/-- A value on one line is read as the document that is printed for it. -/
theorem ofText?_compact {v : Json} (hwhole : v.whole = true) (hdepth : v.depth ≤ maxDepth) :
    Written.ofText? v.compact = some v.document := by
  have hclip : v.document.clip maxDepth = v.document :=
    Written.clip_of_depth _ _ (by rwa [depth_document])
  rw [Written.ofText?_spelled (spelled_compact hwhole hdepth), hclip]

/-- A value on one line is read as the same value if its numbers are whole, and if it is tidy and not
too deep. -/
theorem parse?_compact {v : Json} (hwhole : v.whole = true) (htidy : v.Tidy)
    (hdepth : v.depth ≤ maxDepth) : parse? v.compact = some v := by
  rw [parse?, ofText?_compact hwhole hdepth, Option.bind_some, value?_document v hwhole htidy]

/-! ## Whatever is read -/

/-- Items are tidy if each of them is. -/
theorem tidyItems_iff {items : List Json} : TidyItems items ↔ ∀ v ∈ items, v.Tidy := by
  induction items with
  | nil => simp [TidyItems]
  | cons v rest ih => simp [TidyItems, ih]

/-- The values of members are tidy if each of them is. -/
theorem tidyMembers_iff {members : List (String × Json)} :
    TidyMembers members ↔ ∀ m ∈ members, m.2.Tidy := by
  induction members with
  | nil => simp [TidyMembers]
  | cons m rest ih =>
      obtain ⟨k, v⟩ := m
      rw [TidyMembers, ih, List.forall_mem_cons]
      rfl

/-- A literal that stands for a whole number stands for one of 64 bits. -/
theorem tidy_of_numeral {x : Numeral} {n : Number} (h : x.value? = some n) :
    (Json.number n).Tidy := by
  cases n with
  | float bits => trivial
  | integer n =>
      unfold Numeral.value? at h
      -- what is too large is read as a number with a point
      have hfloat : x.float?.map (fun f => Number.float f.toBits) ≠ some (.integer n) := by
        cases x.float? <;> simp
      split at h
      · dsimp only at h
        generalize x.whole.foldl (fun m c => m * 10 + Numeral.digit c) 0 = m at h
        -- it is an integer only within these bounds
        by_cases hplain : (!x.negative && decide (m ≤ Numeral.largest)) = true
        · rw [if_pos hplain] at h
          cases h
          simp only [Bool.and_eq_true, decide_eq_true_eq] at hplain
          simp only [Tidy]
          omega
        · rw [if_neg hplain] at h
          by_cases hsigned : (x.negative && decide (0 < m) && decide (m ≤ 0x8000000000000000)) = true
          · rw [if_pos hsigned] at h
            cases h
            simp only [Bool.and_eq_true, decide_eq_true_eq] at hsigned
            simp only [Tidy, Numeral.largest]
            omega
          · rw [if_neg hsigned] at h
            exact absurd h hfloat
      · exact absurd h hfloat

mutual
/-- Everything that is read from a document is tidy. -/
theorem tidy_of_value? (w : Written) {v : Json} (h : w.value? = some v) : v.Tidy := by
  -- lists and objects are tidy by the lemmas on their items and members
  cases w with
  | null =>
      cases h
      trivial
  | bool b =>
      cases h
      trivial
  | number x =>
      obtain ⟨n, hn, rfl⟩ := Option.map_eq_some_iff.1 h
      exact tidy_of_numeral hn
  | text ps =>
      obtain ⟨s, -, rfl⟩ := Option.map_eq_some_iff.1 h
      trivial
  | array items =>
      obtain ⟨vs, hvs, rfl⟩ := Option.map_eq_some_iff.1 h
      exact tidyItems_iff.2 (tidy_of_items? items hvs)
  | object members =>
      obtain ⟨kvs, hkvs, rfl⟩ := Option.map_eq_some_iff.1 h
      refine ⟨Assoc.nodup_keys_ofList kvs, tidyMembers_iff.2 fun m hm => ?_⟩
      exact tidy_of_members? members hkvs m (OrderedMap.mem_of_mem_ofList hm)
  | tooDeep => cases h

/-- Items that have been read are tidy. -/
theorem tidy_of_items? (items : List Written) {vs : List Json}
    (h : Written.items? items = some vs) : ∀ v ∈ vs, v.Tidy := by
  cases items with
  | nil =>
      cases h
      simp
  | cons w rest =>
      obtain ⟨v, hv, h⟩ := Option.bind_eq_some_iff.1 h
      obtain ⟨vs', hvs', h⟩ := Option.bind_eq_some_iff.1 h
      cases h
      exact List.forall_mem_cons.2 ⟨tidy_of_value? w hv, tidy_of_items? rest hvs'⟩

/-- The values of members that have been read are tidy. -/
theorem tidy_of_members? (members : List (List Piece × Written)) {kvs : List (String × Json)}
    (h : Written.members? members = some kvs) : ∀ m ∈ kvs, m.2.Tidy := by
  cases members with
  | nil =>
      cases h
      simp
  | cons m rest =>
      obtain ⟨kv, hkv, h⟩ := Option.bind_eq_some_iff.1 h
      obtain ⟨kvs', hkvs', h⟩ := Option.bind_eq_some_iff.1 h
      cases h
      exact List.forall_mem_cons.2 ⟨tidy_of_member? m hkv, tidy_of_members? rest hkvs'⟩

theorem tidy_of_member? (m : List Piece × Written) {kv : String × Json}
    (h : Written.member? m = some kv) : kv.2.Tidy := by
  obtain ⟨k, w⟩ := m
  obtain ⟨s, -, h⟩ := Option.bind_eq_some_iff.1 h
  obtain ⟨v, hv, h⟩ := Option.bind_eq_some_iff.1 h
  cases h
  exact tidy_of_value? w hv
end

/-- Members are no deeper than each of their values. -/
theorem membersDepth_le_iff {members : List (String × Json)} {n : Nat} :
    membersDepth members ≤ n ↔ ∀ m ∈ members, m.2.depth ≤ n := by
  induction members with
  | nil => simp [membersDepth]
  | cons m rest ih =>
      obtain ⟨k, v⟩ := m
      rw [membersDepth, Nat.max_le, ih, List.forall_mem_cons]
      rfl

mutual
/-- What is read from a document is no deeper than the document. -/
theorem depth_of_value? (w : Written) {v : Json} (h : w.value? = some v) : v.depth ≤ w.depth := by
  cases w with
  | null | bool b =>
      cases h
      exact Nat.zero_le _
  | number x | text ps =>
      obtain ⟨_, -, rfl⟩ := Option.map_eq_some_iff.1 h
      exact Nat.zero_le _
  | array items =>
      obtain ⟨vs, hvs, rfl⟩ := Option.map_eq_some_iff.1 h
      exact Nat.succ_le_succ (depth_of_items? items hvs)
  | object members =>
      obtain ⟨kvs, hkvs, rfl⟩ := Option.map_eq_some_iff.1 h
      -- members that are written twice are kept once, so none is deeper than all of them
      have hall := membersDepth_le_iff.1 (depth_of_members? members hkvs)
      refine Nat.succ_le_succ (membersDepth_le_iff.2 fun m hm => ?_)
      exact hall m (OrderedMap.mem_of_mem_ofList hm)
  | tooDeep => cases h

/-- Items are no deeper than the document that they have been read from. -/
theorem depth_of_items? (items : List Written) {vs : List Json}
    (h : Written.items? items = some vs) : itemsDepth vs ≤ Written.itemsDepth items := by
  cases items with
  | nil =>
      cases h
      exact Nat.le_refl _
  | cons w rest =>
      obtain ⟨v, hv, h⟩ := Option.bind_eq_some_iff.1 h
      obtain ⟨vs', hvs', h⟩ := Option.bind_eq_some_iff.1 h
      cases h
      have hfirst := depth_of_value? w hv
      have hrest := depth_of_items? rest hvs'
      rw [itemsDepth, Written.itemsDepth]
      omega

/-- Members are no deeper than the document that they have been read from. -/
theorem depth_of_members? (members : List (List Piece × Written)) {kvs : List (String × Json)}
    (h : Written.members? members = some kvs) :
    membersDepth kvs ≤ Written.membersDepth members := by
  cases members with
  | nil =>
      cases h
      exact Nat.le_refl _
  | cons m rest =>
      obtain ⟨kv, hkv, h⟩ := Option.bind_eq_some_iff.1 h
      obtain ⟨kvs', hkvs', h⟩ := Option.bind_eq_some_iff.1 h
      cases h
      have hfirst := depth_of_member? m hkv
      have hrest := depth_of_members? rest hkvs'
      rw [membersDepth, Written.membersDepth]
      omega

theorem depth_of_member? (m : List Piece × Written) {kv : String × Json}
    (h : Written.member? m = some kv) : memberDepth kv ≤ Written.memberDepth m := by
  obtain ⟨k, w⟩ := m
  obtain ⟨s, -, h⟩ := Option.bind_eq_some_iff.1 h
  obtain ⟨v, hv, h⟩ := Option.bind_eq_some_iff.1 h
  cases h
  exact depth_of_value? w hv
end

end Json
end Recast
