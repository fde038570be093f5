import Recast.Morph.Function
import Recast.Proofs.Result
import Recast.Proofs.Text.Digits

/-!
# Call — what a call depends on

The function of a call depends on the attributes that functions read, and on the tables that those
of its signature name; other attributes and tables do not matter.
-/

namespace Recast
namespace Function

def attributeNames : List String :=
  ["to", "value", "prefix", "postfix", "pattern", "with", "match", "format", "start", "end", "in",
    "default", "map", "only", "string"]

/-- Two lists of attributes agree where functions read them. -/
def Agree (as bs : OrderedMap String String) : Prop :=
  ∀ k ∈ attributeNames, as.get? k = bs.get? k

/-- Two lists of tables agree where the signature of a function has attributes name them. -/
def AgreeOn (as : OrderedMap String String) (maps maps' : OrderedMap String Script.Table)
    (s : Signature) : Prop :=
  ∀ k ∈ s.tables, ∀ name, as.get? k = some name → maps.get? name = maps'.get? name

variable {f : String} {as bs : OrderedMap String String}
  {maps maps' : OrderedMap String Script.Table}

theorem required_congr {k : String} (h : as.get? k = bs.get? k) :
    required f as k = required f bs k := by
  rw [required, required, h]

theorem pattern_congr {k : String} (h : as.get? k = bs.get? k) :
    pattern f as k = pattern f bs k := by
  rw [pattern, pattern, required_congr h]

theorem count?_congr {k : String} (h : as.get? k = bs.get? k) : count? f as k = count? f bs k := by
  rw [count?, count?, h]

/-- A table depends on the attribute that names it and on the tables of that name. -/
theorem table_congr {k : String} (h : as.get? k = bs.get? k)
    (hmaps : ∀ name, bs.get? k = some name → maps.get? name = maps'.get? name) :
    table f as maps k = table f bs maps' k := by
  unfold table
  rw [required_congr h, required]
  cases hk : bs.get? k with
  | none => rfl
  | some name =>
      dsimp only
      rw [ok_bind, ok_bind, hmaps name hk]

/-- A function that is found is one of those there are, with the name that has been asked for. -/
theorem mem_functions {s : Signature} (h : Signature.function? f = some s) :
    s ∈ Signature.functions ∧ s.name = f :=
  ⟨List.mem_of_find?_eq_some h, by simpa using List.find?_some h⟩

/-- Functions require no attributes but those that they read. -/
theorem required_mem_attributeNames {s : Signature} (h : s ∈ Signature.functions) :
    ∀ k ∈ s.required ++ s.tables, k ∈ attributeNames := by
  revert s
  decide

/-- Which attribute is missing depends on the attributes that functions read. -/
theorem checkRequired_congr {s : Signature} (hs : s ∈ Signature.functions) (h : Agree as bs) :
    checkRequired s as = checkRequired s bs := by
  have hfind : ∀ ks ⊆ attributeNames,
      (ks.find? fun k => (as.get? k).isNone) = ks.find? fun k => (bs.get? k).isNone := by
    intro ks hks
    induction ks with
    | nil => rfl
    | cons k rest ih =>
        rw [List.find?_cons, List.find?_cons, h k (hks List.mem_cons_self),
          ih fun i hi => hks (List.mem_cons_of_mem _ hi)]
  rw [checkRequired, checkRequired, hfind s.required fun k hk =>
    required_mem_attributeNames hs k (List.mem_append_left _ hk)]

/-- The function of a call depends on nothing else. -/
theorem ofCall_congr (h : Agree as bs)
    (hmaps : ∀ s, Signature.function? f = some s → AgreeOn bs maps maps' s) :
    ofCall maps ⟨f, as⟩ = ofCall maps' ⟨f, bs⟩ := by
  cases hs : Signature.function? f with
  | none => simp [ofCall, hs]
  | some s =>
      obtain ⟨hmem, hname⟩ := mem_functions hs
      have hcheck := checkRequired_congr hmem h
      have hin' : "in" ∈ s.tables → table f as maps "in" = table f bs maps' "in" :=
        fun h' => table_congr (h "in" (by decide)) (hmaps s hs "in" h')
      have hmap' : "map" ∈ s.tables → table f as maps "map" = table f bs maps' "map" :=
        fun h' => table_congr (h "map" (by decide)) (hmaps s hs "map" h')
      have hget : ∀ k ∈ attributeNames, as.get? k = bs.get? k := h
      simp only [attributeNames, List.forall_mem_cons] at hget
      obtain ⟨hto, hvalue, hprefix, hpostfix, hpattern, hwith, hmatch, hformat, hstart, hend, -,
        hdefault, -, honly, hstring, -⟩ := hget
      unfold ofCall
      simp only [hs, hcheck]
      simp only [Signature.functions, List.mem_cons, List.not_mem_nil, or_false] at hmem
      rcases hmem with rfl | rfl | rfl | rfl | rfl | rfl | rfl | rfl | rfl | rfl | rfl | rfl | rfl |
        rfl | rfl <;> subst hname
      -- the signature says which of the tables a function asks for
      all_goals simp only [List.mem_singleton, hin', hmap', hdefault, required_congr hto,
        required_congr hvalue, hprefix, hpostfix, pattern_congr hpattern, required_congr hwith,
        pattern_congr hmatch, hformat, count?_congr hstart, count?_congr hend, count?_congr honly,
        required_congr hstring]

/-- The table of an attribute is the one that it names. -/
theorem table_eq_ok {k name : String} {t : Script.Table} (hname : as.get? k = some name)
    (ht : maps.get? name = some t) : table f as maps k = .ok t.toMap := by
  simp only [table, required, hname]
  rw [ok_bind, ht]

/-- The attributes that a signature requires are there. -/
theorem checkRequired_of_isSome {s : Signature}
    (h : ∀ k ∈ s.required, (as.get? k).isSome = true) : checkRequired s as = .ok () := by
  have hnone : s.required.find? (fun k => (as.get? k).isNone) = none := by
    refine List.find?_eq_none.2 fun k hk => ?_
    simpa [Option.isSome_iff_ne_none] using h k hk
  rw [checkRequired, hnone]

/-- A call that counts with a positive number. -/
theorem ofCall_occurrence {n : String} {k : Nat} (honly : as.get? "only" = some n)
    (hread : Count.read Count.max64 n.toList = .ok k) (hk : k ≠ 0) :
    ofCall maps ⟨"occurrence", as⟩ = .ok (.occurrence k) := by
  have hs : Signature.function? "occurrence" = some ⟨"occurrence", ["only"], []⟩ := by decide
  have hcheck : checkRequired ⟨"occurrence", ["only"], []⟩ as = .ok () :=
    checkRequired_of_isSome (by simp [honly])
  have hcount : count? "occurrence" as "only" = .ok (some k) := by
    simp only [count?, honly, Count.trim_of_read hread, hread]
  obtain ⟨k, rfl⟩ := Nat.exists_eq_succ_of_ne_zero hk
  unfold ofCall
  simp only [hs, hcheck, hcount]
  rfl

end Function
end Recast
