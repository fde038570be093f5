/-!
# Parts — texts split at a separator and joined again

`split` cuts a list of characters at every occurrence of one character; `join` puts the character
back between the parts.  `cut?` divides a text at the first occurrence of another one.  Main
statements: `join_split` and `append_of_cut?`, nothing is lost, and `split_join`, parts without the
separator are found again.
-/

namespace Recast
namespace Text

/-- The parts between the separators; a text without separators is its only part. -/
def split (d : Char) : List Char → List (List Char)
  | [] => [[]]
  | c :: rest =>
      if c = d then [] :: split d rest
      else match split d rest with
        | [] => [[c]]
        | p :: ps => (c :: p) :: ps

def join (d : Char) : List (List Char) → List Char
  | [] => []
  | [p] => p
  | p :: ps => p ++ d :: join d ps

theorem split_ne_nil (d : Char) (cs : List Char) : split d cs ≠ [] := by
  cases cs with
  | nil => simp [split]
  | cons c rest =>
      unfold split
      split
      · simp
      · split <;> simp

theorem join_cons_of_ne_nil (d : Char) (p : List Char) {ps : List (List Char)} (h : ps ≠ []) :
    join d (p :: ps) = p ++ d :: join d ps := by
  cases ps with
  | nil => exact absurd rfl h
  | cons q qs => rfl

/-- Parts that are joined again are the text they come from. -/
theorem join_split (d : Char) (cs : List Char) : join d (split d cs) = cs := by
  induction cs with
  | nil => rfl
  | cons c rest ih =>
      unfold split
      -- a separator starts a new piece, any other character belongs to the first piece of the rest
      by_cases h : c = d
      · rw [if_pos h, join_cons_of_ne_nil d [] (split_ne_nil d rest), ih, h]
        rfl
      · rw [if_neg h]
        revert ih
        cases hs : split d rest with
        | nil => exact fun _ => absurd hs (split_ne_nil d rest)
        | cons p ps =>
            intro ih
            cases ps with
            | nil => simpa [join] using ih
            | cons q qs => simpa [join] using ih

/-- A text without separators is its only part. -/
theorem split_of_not_mem {d : Char} {cs : List Char} (h : d ∉ cs) : split d cs = [cs] := by
  induction cs with
  | nil => rfl
  | cons c rest ih =>
      obtain ⟨hc, hrest⟩ : d ≠ c ∧ d ∉ rest := by simpa using h
      rw [split, if_neg hc.symm, ih hrest]

/-- A separator ends the parts in front of it. -/
theorem split_append (d : Char) (as bs : List Char) :
    split d (as ++ d :: bs) = split d as ++ split d bs := by
  induction as with
  | nil => simp [split]
  | cons a rest ih =>
      by_cases h : a = d
      · simp [split, h, ih]
      · -- the character goes to the first part of the rest, which is there
        rw [List.cons_append, split, split, if_neg h, if_neg h, ih]
        cases hs : split d rest with
        | nil => exact absurd hs (split_ne_nil d rest)
        | cons p ps => rfl

/-- Parts without the separator are found again between the separators. -/
theorem split_join {d : Char} {ps : List (List Char)} (hne : ps ≠ []) (hps : ∀ p ∈ ps, d ∉ p) :
    split d (join d ps) = ps := by
  induction ps with
  | nil => exact absurd rfl hne
  | cons p rest ih =>
      obtain ⟨hp, hrest⟩ := List.forall_mem_cons.1 hps
      cases rest with
      | nil => exact split_of_not_mem hp
      | cons q more =>
          have hq : q :: more ≠ [] := List.cons_ne_nil q more
          calc split d (join d (p :: q :: more))
              = split d p ++ split d (join d (q :: more)) := by
                rw [join_cons_of_ne_nil d p hq, split_append]
            _ = p :: q :: more := by rw [split_of_not_mem hp, ih hq hrest, List.singleton_append]

/-- No part has a separator in it. -/
theorem not_mem_of_mem_split {d : Char} {cs p : List Char} (h : p ∈ split d cs) :
    d ∉ p ∧ p ⊆ cs := by
  induction cs generalizing p with
  | nil =>
      obtain rfl := List.mem_singleton.1 h
      simp
  | cons c rest ih =>
      rw [split] at h
      by_cases hc : c = d
      · rw [if_pos hc] at h
        -- the first piece is empty, the others are those of the rest
        rcases List.mem_cons.1 h with rfl | h
        · simp
        · obtain ⟨hd, hsub⟩ := ih h
          exact ⟨hd, fun e he => List.mem_cons_of_mem _ (hsub he)⟩
      · rw [if_neg hc] at h
        cases hparts : split d rest with
        | nil => exact absurd hparts (split_ne_nil d rest)
        | cons q qs =>
            rw [hparts] at h ih
            -- the first piece has grown by this character
            rcases List.mem_cons.1 h with rfl | h
            · obtain ⟨hd, hsub⟩ := ih List.mem_cons_self
              exact ⟨by simp [hd, Ne.symm hc], List.cons_subset_cons c hsub⟩
            · obtain ⟨hd, hsub⟩ := ih (List.mem_cons_of_mem _ h)
              exact ⟨hd, fun e he => List.mem_cons_of_mem _ (hsub he)⟩

/-- A text is divided in one way only at its first separator. -/
theorem append_cons_inj {d : α} {as bs cs ds : List α} (ha : d ∉ as) (hb : d ∉ bs)
    (h : as ++ d :: cs = bs ++ d :: ds) : as = bs ∧ cs = ds := by
  induction as generalizing bs with
  | nil =>
      -- the separator comes first on both sides, or on neither
      cases bs with
      | nil => exact ⟨rfl, (List.cons.inj h).2⟩
      | cons b rest => exact absurd ((List.cons.inj h).1 ▸ List.mem_cons_self) hb
  | cons a rest ih =>
      cases bs with
      | nil => exact absurd ((List.cons.inj h).1 ▸ List.mem_cons_self) ha
      | cons b more =>
          obtain ⟨rfl, hrest⟩ := List.cons.inj h
          have hnot : ∀ {es : List α}, d ∉ a :: es → d ∉ es :=
            fun hn hm => hn (List.mem_cons_of_mem _ hm)
          obtain ⟨rfl, rfl⟩ := ih (hnot ha) (hnot hb) hrest
          exact ⟨rfl, rfl⟩

/-- A text is divided in one way only at its last separator. -/
theorem append_cons_inj_last {d : α} {as bs cs ds : List α} (hc : d ∉ cs) (hd : d ∉ ds)
    (h : as ++ d :: cs = bs ++ d :: ds) : as = bs ∧ cs = ds := by
  have hreverse := congrArg List.reverse h
  simp only [List.reverse_append, List.reverse_cons, List.append_assoc, List.singleton_append]
    at hreverse
  obtain ⟨hback, hfront⟩ :=
    append_cons_inj (by simpa using hc) (by simpa using hd) hreverse
  exact ⟨List.reverse_inj.1 hfront, List.reverse_inj.1 hback⟩

/-- The parts before and after the first occurrence of a text. -/
def cut? (mark : List Char) : List Char → Option (List Char × List Char)
  | [] => if mark.isEmpty then some ([], []) else none
  | c :: rest =>
      if mark.isPrefixOf (c :: rest) then some ([], (c :: rest).drop mark.length)
      else (cut? mark rest).map fun (a, b) => (c :: a, b)

/-- A text that has been cut consists of what was before the mark, the mark, and what was behind it.
-/
theorem append_of_cut? {mark cs before after : List Char} (h : cut? mark cs = some (before, after)) :
    cs = before ++ mark ++ after := by
  induction cs generalizing before with
  | nil =>
      unfold cut? at h
      split at h
      · rename_i hm
        simp only [List.isEmpty_iff] at hm
        simp_all
      · exact absurd h (by simp)
  | cons c rest ih =>
      unfold cut? at h
      split at h
      · -- the mark stands here
        rename_i hm
        obtain ⟨tail, ht⟩ := List.isPrefixOf_iff_prefix.1 hm
        simp only [Option.some.injEq, Prod.mk.injEq] at h
        obtain ⟨rfl, rfl⟩ := h
        simp [← ht]
      · -- the mark stands somewhere in the rest
        obtain ⟨⟨a, b⟩, hab, he⟩ := Option.map_eq_some_iff.1 h
        simp only [Prod.mk.injEq] at he
        obtain ⟨rfl, rfl⟩ := he
        simp [ih hab]

/-- Put one text in the place of another, from left to right; `skip` characters belong to an
occurrence that has been replaced. -/
def replace (mark by_ : List Char) (skip : Nat) : List Char → List Char
  | [] => []
  | c :: rest =>
      match skip with
      | n + 1 => replace mark by_ n rest
      | 0 =>
          if mark.isPrefixOf (c :: rest) then by_ ++ replace mark by_ (mark.length - 1) rest
          else c :: replace mark by_ 0 rest

def parts (d : Char) (s : String) : List String :=
  (split d s.toList).map String.ofList

/-- The parts put together, with a text between any two of them. -/
def glue (d : String) : List String → String
  | [] => ""
  | [p] => p
  | p :: ps => p ++ d ++ glue d ps

/-- Texts in quotation marks, in their order, as a list in brackets. -/
def quotedList (texts : List String) : String :=
  "[" ++ glue ", " (texts.map fun t => "\"" ++ t ++ "\"") ++ "]"

def compareAll : List String → List String → Ordering
  | [], [] => .eq
  | [], _ :: _ => .lt
  | _ :: _, [] => .gt
  | a :: as, b :: bs => (compare a b).then (compareAll as bs)

end Text
end Recast
