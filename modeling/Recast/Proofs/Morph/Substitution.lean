import Recast.Proofs.Morph.Call
import Recast.Proofs.OrderedMap

/-!
# Substitution — the longest key at each place

A substitution reads a value from left to right.  Where a key of its table begins, the longest such
key is replaced by its text, and reading goes on behind it; any other character is kept.  Here this
is said without the list of pairs that the function goes through: `Script.Table.Replaced`.  The main
statement is `Function.substitutes_longest`.

* `Script.Table.Gives` — the text that a table has for a key;
* `Script.Table.Longest` — the key that is replaced in front of a text;
* `Script.Table.Replaced` — a text and what becomes of it.
-/

namespace Recast

namespace Script.Table

variable {t u : Table} {key value : String} {cs rest out : List Char}

/-! ## What tables say -/

/-- A table has a text for a key: that of the last entry with this name, and the empty one if the
entry has no value. -/
def Gives (t : Table) (key value : String) : Prop :=
  ∃ e, (t.entries.filter fun e => e.name = key).getLast? = some e ∧ e.value.getD "" = value

/-- A text begins with a key of a table and goes on with a rest, and no key of the table with which
it begins is longer; the empty key does not count. -/
structure Longest (t : Table) (key value : String) (cs rest : List Char) : Prop where
  gives : t.Gives key value
  nonempty : key ≠ ""
  here : cs = key.toList ++ rest
  longest : ∀ k v, t.Gives k v → k.toList <+: cs → k.toList.length ≤ key.toList.length

/-- What becomes of a text: the longest key at its front is replaced, or else its first character is
kept, and then the same is done to the rest.  What has been put in for a key is not read again. -/
inductive Replaced (t : Table) : List Char → List Char → Prop
  | nil : Replaced t [] []
  | key {key value : String} {cs rest out : List Char} (h : t.Longest key value cs rest)
      (hrest : Replaced t rest out) : Replaced t cs (value.toList ++ out)
  | char {c : Char} {rest out : List Char}
      (h : ∀ k v, t.Gives k v → k.toList <+: c :: rest → k = "")
      (hrest : Replaced t rest out) : Replaced t (c :: rest) (c :: out)

/-- A table and its map say the same. -/
theorem get?_toMap_iff : t.toMap.get? key = some value ↔ t.Gives key value := by
  unfold toMap Gives
  rw [OrderedMap.get?_ofList, List.filter_map, List.getLast?_map, Option.map_map]
  simp [Function.comp_def]

/-- Two tables that have the same entries for each key, in the same order, say the same. -/
theorem Gives.congr (h : ∀ key, t.entries.filter (fun e => e.name = key) =
    u.entries.filter fun e => e.name = key) : t.Gives = u.Gives := by
  funext key value
  unfold Gives
  rw [h key]

theorem Gives.unique {value' : String} (h : t.Gives key value) (h' : t.Gives key value') :
    value = value' := by
  obtain ⟨e, he, rfl⟩ := h
  obtain ⟨e', he', rfl⟩ := h'
  rw [Option.some.inj (he.symm.trans he')]

/-! ## What becomes of texts -/

/-- There is one longest key at most. -/
theorem Longest.unique {key' value' : String} {rest' : List Char} (h : t.Longest key value cs rest)
    (h' : t.Longest key' value' cs rest') : key = key' ∧ value = value' ∧ rest = rest' := by
  have hlength : key.toList.length = key'.toList.length :=
    Nat.le_antisymm (h'.longest key value h.gives ⟨rest, h.here.symm⟩)
      (h.longest key' value' h'.gives ⟨rest', h'.here.symm⟩)
  obtain ⟨hkey, hrest⟩ := List.append_inj (h.here.symm.trans h'.here) hlength
  obtain rfl := String.toList_inj.1 hkey
  exact ⟨rfl, h.gives.unique h'.gives, hrest⟩

/-- A table says in one way only what becomes of a text. -/
theorem Replaced.unique {out' : List Char} (h : t.Replaced cs out) (h' : t.Replaced cs out') :
    out = out' := by
  induction h generalizing out' with
  | nil =>
      generalize hnil : ([] : List Char) = cs at h'
      cases h' with
      | nil => rfl
      -- no key is empty, so none starts where nothing is left
      | key hkey _ =>
          have hempty := List.append_eq_nil_iff.1 (hnil.trans hkey.here).symm
          exact absurd (String.toList_eq_nil_iff.1 hempty.1) hkey.nonempty
      | char => cases hnil
  | @key key value cs rest out hkey _ ih =>
      cases h' with
      | nil =>
          have hempty := List.append_eq_nil_iff.1 hkey.here.symm
          exact absurd (String.toList_eq_nil_iff.1 hempty.1) hkey.nonempty
      -- only one key is the longest that starts here
      | key hkey' hrest =>
          obtain ⟨rfl, rfl, rfl⟩ := hkey.unique hkey'
          rw [ih hrest]
      | char hnone _ =>
          exact absurd (hnone key value hkey.gives ⟨rest, hkey.here.symm⟩) hkey.nonempty
  | char hnone _ ih =>
      generalize htext : _ :: _ = text at h'
      cases h' with
      | nil => cases htext
      -- where a key starts no single character is taken over
      | key hkey _ =>
          exact absurd (hnone _ _ hkey.gives (htext ▸ ⟨_, hkey.here.symm⟩)) hkey.nonempty
      | char _ hrest =>
          obtain ⟨rfl, rfl⟩ := List.cons.inj htext
          rw [ih hrest]

/-- Tables that give the same texts replace alike. -/
theorem Replaced.congr (h : t.Gives = u.Gives) (hout : t.Replaced cs out) : u.Replaced cs out := by
  induction hout with
  | nil => exact .nil
  | key hkey _ ih =>
      exact .key ⟨h ▸ hkey.gives, hkey.nonempty, hkey.here, h ▸ hkey.longest⟩ ih
  | char hnone _ ih => exact .char (h ▸ hnone) ih

end Script.Table

namespace Function

variable {t : Script.Table} {cs rest out : List Char}

/-! ## Lists of pairs -/

/-- Of two texts with which a text begins, the one with fewer bytes has fewer characters. -/
theorem length_le_of_size_le {k l : String} (hk : k.toList <+: cs) (hl : l.toList <+: cs)
    (h : k.utf8ByteSize ≤ l.utf8ByteSize) : k.toList.length ≤ l.toList.length := by
  rcases List.prefix_or_prefix_of_prefix hk hl with hprefix | ⟨more, hmore⟩
  · exact hprefix.length_le
  · -- the longer text has no bytes beyond those of the shorter one
    have heq : k = l ++ String.ofList more := by
      rw [← String.toList_inj, String.toList_append, String.toList_ofList, hmore]
    have hsize : k.utf8ByteSize = l.utf8ByteSize + (String.ofList more).utf8ByteSize := by
      rw [heq, String.utf8ByteSize_append]
    have hnil : String.ofList more = "" := String.utf8ByteSize_eq_zero_iff.1 (by omega)
    have hsame : k = l := by
      calc k = l ++ String.ofList more := heq
        _ = l := by rw [hnil, String.append_empty]
    exact Nat.le_of_eq (by rw [hsame])

/-- The pairs that are tried are those of the table, except for the empty key. -/
theorem mem_substitutions {m : OrderedMap String String} {p : List Char × List Char} :
    p ∈ substitutions m ↔
      ∃ k v, m.get? k = some v ∧ k ≠ "" ∧ p = (k.toList, v.toList) := by
  simp only [substitutions, List.mem_map, List.mem_mergeSort, List.mem_filter, Prod.exists,
    OrderedMap.mem_toList_iff, bne_iff_ne, and_assoc]
  simp only [eq_comm]

/-- Keys that come later have no more bytes. -/
theorem pairwise_substitutions (m : OrderedMap String String) :
    (substitutions m).Pairwise fun p q =>
      (String.ofList q.1).utf8ByteSize ≤ (String.ofList p.1).utf8ByteSize := by
  unfold substitutions
  simp only [List.pairwise_map, String.ofList_toList]
  refine (List.pairwise_mergeSort ?_ ?_ _).imp ?_
  · intro a b c hab hbc
    simp only [Bool.or_eq_true, Bool.and_eq_true, decide_eq_true_iff, beq_iff_eq] at *
    -- the longer key comes first, of two keys of one length the smaller one
    rcases hab with hab | ⟨hab, hle⟩ <;> rcases hbc with hbc | ⟨hbc, hle'⟩
    · exact .inl (by omega)
    · exact .inl (by omega)
    · exact .inl (by omega)
    · exact .inr ⟨by omega, String.le_trans hle hle'⟩
  · intro a b
    simp only [Bool.or_eq_true, Bool.and_eq_true, decide_eq_true_iff, beq_iff_eq]
    -- of two keys one is longer, or they are compared as texts
    rcases Nat.lt_trichotomy a.1.utf8ByteSize b.1.utf8ByteSize with hlt | heq | hlt
    · exact .inr (.inl hlt)
    · rcases String.le_total a.1 b.1 with hle | hle
      · exact .inl (.inr ⟨heq, hle⟩)
      · exact .inr (.inr ⟨heq.symm, hle⟩)
    · exact .inl (.inl hlt)
  · intro a b h
    simp only [Bool.or_eq_true, Bool.and_eq_true, decide_eq_true_iff, beq_iff_eq] at h
    omega

/-- The first pair that fits is the longest key of the table. -/
theorem longest_of_find? {p : List Char × List Char}
    (h : (substitutions t.toMap).find? (fun p => p.1.isPrefixOf cs) = some p) :
    ∃ key value rest, p = (key.toList, value.toList) ∧ t.Longest key value cs rest := by
  obtain ⟨hfits, before, after, hsplit, hbefore⟩ := List.find?_eq_some_iff_append.1 h
  obtain ⟨key, value, hget, hne, rfl⟩ := mem_substitutions.1 (List.mem_of_find?_eq_some h)
  have hkey : key.toList <+: cs := List.isPrefixOf_iff_prefix.1 hfits
  obtain ⟨rest, hrest⟩ := id hkey
  refine ⟨key, value, rest, rfl, Script.Table.get?_toMap_iff.1 hget, hne, hrest.symm, ?_⟩
  intro k v hgives hk
  by_cases hempty : k = ""
  · simp [hempty]
  have hmem : (k.toList, v.toList) ∈ substitutions t.toMap :=
    mem_substitutions.2 ⟨k, v, Script.Table.get?_toMap_iff.2 hgives, hempty, rfl⟩
  have hsizes := pairwise_substitutions t.toMap
  rw [hsplit] at hmem hsizes
  rcases List.mem_append.1 hmem with hmem | hmem
  · -- a pair in front of the one found does not fit
    have hnot := hbefore _ hmem
    rw [List.isPrefixOf_iff_prefix.2 hk] at hnot
    cases hnot
  · rcases List.mem_cons.1 hmem with hsame | hmem
    · exact Nat.le_of_eq (congrArg List.length (Prod.mk.inj hsame).1)
    · refine length_le_of_size_le hk hkey ?_
      have hle := (List.pairwise_cons.1 (List.pairwise_append.1 hsizes).2.1).1 _ hmem
      simpa using hle

/-- If no pair fits, no key of the table does. -/
theorem eq_empty_of_find? (h : (substitutions t.toMap).find? (fun p => p.1.isPrefixOf cs) = none)
    {k v : String} (hgives : t.Gives k v) (hk : k.toList <+: cs) : k = "" := by
  by_contra hne
  have hnot := List.find?_eq_none.1 h _
    (mem_substitutions.2 ⟨k, v, Script.Table.get?_toMap_iff.2 hgives, hne, rfl⟩)
  exact hnot (List.isPrefixOf_iff_prefix.2 hk)

/-! ## Replacing -/

/-- The characters of a key that has been replaced are passed over. -/
theorem substituteChars_skip (pairs : List (List Char × List Char)) (n : Nat) (cs : List Char) :
    substituteChars pairs n cs = substituteChars pairs 0 (cs.drop n) := by
  induction cs generalizing n with
  | nil => simp [substituteChars]
  | cons c rest ih =>
      cases n with
      | zero => rfl
      | succ n => rw [substituteChars, ih, List.drop_succ_cons]

/-- Going through the pairs of a table replaces the longest key at each place. -/
theorem replaced_substituteChars (t : Script.Table) (cs : List Char) :
    t.Replaced cs (substituteChars (substitutions t.toMap) 0 cs) := by
  -- a key takes off more than one character, so the induction is on the length
  induction h : cs.length using Nat.strongRecOn generalizing cs with
  | ind n ih =>
      cases cs with
      | nil => exact .nil
      | cons c rest =>
          rw [substituteChars]
          cases hfind : (substitutions t.toMap).find? fun p => p.1.isPrefixOf (c :: rest) with
          | none =>
              refine .char (fun k v hgives hk => eq_empty_of_find? hfind hgives hk) ?_
              exact ih rest.length (by simp [← h]) rest rfl
          | some p =>
              obtain ⟨key, value, behind, rfl, hkey⟩ := longest_of_find? hfind
              obtain ⟨more, hmore⟩ : ∃ more, key.toList = c :: more := by
                cases hlist : key.toList with
                | nil => exact absurd (String.toList_eq_nil_iff.1 hlist) hkey.nonempty
                | cons d more =>
                    have hhere := hkey.here
                    rw [hlist, List.cons_append] at hhere
                    exact ⟨more, by rw [(List.cons.inj hhere).1]⟩
              have hrest : rest = more ++ behind := by
                have hhere := hkey.here
                rw [hmore, List.cons_append] at hhere
                exact (List.cons.inj hhere).2
              have hdrop : rest.drop (key.toList.length - 1) = behind := by
                rw [hrest, hmore]
                simp
              simp only
              rw [substituteChars_skip, hdrop]
              refine .key hkey (ih behind.length ?_ behind rfl)
              rw [← h, hrest]
              simp only [List.length_cons, List.length_append]
              omega

/-- What becomes of a text is what the function makes of it. -/
theorem replaced_iff : t.Replaced cs out ↔ out = substituteChars (substitutions t.toMap) 0 cs :=
  ⟨fun h => h.unique (replaced_substituteChars t cs), fun h => h ▸ replaced_substituteChars t cs⟩

/-- A call that names its table is a substitution. -/
theorem ofCall_setreplace {maps : OrderedMap String Script.Table}
    {attributes : OrderedMap String String} {name : String}
    (hname : attributes.get? "map" = some name) (ht : maps.get? name = some t) :
    ofCall maps ⟨"setreplace", attributes⟩ = .ok (.substitute (substitutions t.toMap)) := by
  have hs : Signature.function? "setreplace" = some ⟨"setreplace", ["map"], ["map"]⟩ := by decide
  have hcheck : checkRequired ⟨"setreplace", ["map"], ["map"]⟩ attributes = .ok () :=
    checkRequired_of_isSome (by simp [hname])
  unfold ofCall
  simp only [hs, hcheck, table_eq_ok hname ht]
  rfl

/-- A substitution answers every value by the one text that comes of it when the longest key of its
table is replaced at each place from left to right.  It is the same for every table that has the
same entries for each key in the same order, wherever entries with other keys stand. -/
theorem substitutes_longest {maps : OrderedMap String Script.Table}
    {attributes : OrderedMap String String} {name : String}
    (hname : attributes.get? "map" = some name) (ht : maps.get? name = some t) :
    ∃ f, ofCall maps ⟨"setreplace", attributes⟩ = .ok f ∧
      (∀ m value, ∃ out, f.apply m value = (some out, m) ∧
        ∀ cs, t.Replaced value.toList cs ↔ cs = out.toList) ∧
      ∀ (maps' : OrderedMap String Script.Table) (u : Script.Table), maps'.get? name = some u →
        (∀ key, t.entries.filter (fun e => e.name = key) =
          u.entries.filter fun e => e.name = key) →
        ∃ g, ofCall maps' ⟨"setreplace", attributes⟩ = .ok g ∧
          ∀ m value, g.apply m value = f.apply m value := by
  refine ⟨_, ofCall_setreplace hname ht, ?_, ?_⟩
  · intro m value
    refine ⟨_, rfl, ?_⟩
    intro cs
    rw [String.toList_ofList]
    exact replaced_iff
  · -- what the first table makes of the text, the second one makes of it as well
    intro maps' u hu hsame
    refine ⟨_, ofCall_setreplace hname hu, ?_⟩
    intro m value
    have hout := (replaced_substituteChars t value.toList).congr (Script.Table.Gives.congr hsame)
    rw [apply, apply, replaced_iff.1 hout]

/-- A table with keys inside keys, a repeated key, one without value, and the empty one. -/
def overlapping : Script.Table :=
  ⟨"m", [⟨"a", some "1", []⟩, ⟨"ab", some "2", []⟩, ⟨"é", none, []⟩, ⟨"éa", some "<a>", []⟩,
    ⟨"", some "never", []⟩, ⟨"a", some "3", []⟩]⟩

theorem substitutions_overlapping : substitutions overlapping.toMap =
    [("éa".toList, "<a>".toList), ("ab".toList, "2".toList), ("é".toList, []),
      ("a".toList, "3".toList)] := by
  have hmap : overlapping.toMap.toList =
      [("a", "3"), ("ab", "2"), ("é", ""), ("éa", "<a>"), ("", "never")] := by decide +kernel
  rw [substitutions, hmap]
  simp +decide [List.mergeSort, List.MergeSort.Internal.splitInTwo]

def shuffled : Script.Table :=
  ⟨"m", [⟨"", some "never", []⟩, ⟨"éa", some "<a>", []⟩, ⟨"a", some "1", []⟩, ⟨"é", none, []⟩,
    ⟨"a", some "3", []⟩, ⟨"ab", some "2", []⟩]⟩

theorem substitutes_longest_overlapping :
    let attributes := OrderedMap.ofList [("map", "m")]
    let maps := OrderedMap.ofList [("m", overlapping)]
    let maps' := OrderedMap.ofList [("m", shuffled)]
    attributes.get? "map" = some "m" ∧ maps.get? "m" = some overlapping ∧
      maps'.get? "m" = some shuffled ∧
      (∀ key, overlapping.entries.filter (fun e => e.name = key) =
        shuffled.entries.filter fun e => e.name = key) ∧
      ∃ f g, ofCall maps ⟨"setreplace", attributes⟩ = .ok f ∧
        ofCall maps' ⟨"setreplace", attributes⟩ = .ok g ∧
        f.apply .fresh "xabéabéba" = (some "x2<a>bb3", .fresh) ∧
        g.apply .fresh "xabéabéba" = (some "x2<a>bb3", .fresh) ∧
        overlapping.Replaced "xabéabéba".toList "x2<a>bb3".toList := by
  intro attributes maps maps'
  have hname : attributes.get? "map" = some "m" := by decide +kernel
  have ht : maps.get? "m" = some overlapping := by decide +kernel
  have hu : maps'.get? "m" = some shuffled := by decide +kernel
  have hsame : ∀ key, overlapping.entries.filter (fun e => e.name = key) =
      shuffled.entries.filter fun e => e.name = key := by
    intro key
    by_cases hkey : key ∈ ["a", "ab", "é", "éa", ""]
    · simp only [List.mem_cons, List.not_mem_nil, or_false] at hkey
      rcases hkey with rfl | rfl | rfl | rfl | rfl <;> decide +kernel
    · simp only [List.mem_cons, List.not_mem_nil, or_false, not_or] at hkey
      obtain ⟨ha, hab, hacute, hlong, hempty⟩ := hkey
      simp [overlapping, shuffled, Ne.symm ha, Ne.symm hab, Ne.symm hacute,
        Ne.symm hlong, Ne.symm hempty]
  obtain ⟨f, hf, hout, horder⟩ := substitutes_longest hname ht
  obtain ⟨g, hg, hsameValue⟩ := horder maps' shuffled hu hsame
  obtain ⟨out, hf', hreplaced⟩ := hout .fresh "xabéabéba"
  -- the first call is built from the first table
  have hvalue : f.apply .fresh "xabéabéba" = (some "x2<a>bb3", .fresh) := by
    obtain rfl := Except.ok.inj (hf.symm.trans (ofCall_setreplace hname ht))
    rw [substitutions_overlapping]
    decide +kernel
  obtain rfl : out = "x2<a>bb3" :=
    Option.some.inj (Prod.mk.inj (hf'.symm.trans hvalue)).1
  exact ⟨hname, ht, hu, hsame, f, g, hf, hg, hf', hsameValue .fresh _ ▸ hf', (hreplaced _).2 rfl⟩

end Function

end Recast
