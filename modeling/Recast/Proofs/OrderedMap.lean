import Mathlib.Data.List.Induction
import Mathlib.Data.List.Nodup
import Recast.OrderedMap

/-!
# OrderedMap — maps written from lists

What a map holds after a list of pairs has been written: under each key the last pair counts.
-/

namespace Recast
namespace OrderedMap

variable {κ : Type u} {α : Type v} {β : Type w} [DecidableEq κ]

/-- Of two values written under a key the second one counts. -/
theorem put_put (m : OrderedMap κ α) (k : κ) (v w : α) : (m.put k v).put k w = m.put k w := by
  refine ext_get? ?_ fun k' => ?_
  · simp only [keys_put]
    by_cases hk : k ∈ m.keys <;> simp [hk]
  · simp only [get?_put]
    split <;> rfl

theorem mem_of_get? {m : OrderedMap κ α} {k : κ} {v : α} (h : m.get? k = some v) :
    (k, v) ∈ m.toList := by
  have hall : ∀ ps : List (κ × α), Assoc.get? k ps = some v → (k, v) ∈ ps := by
    intro ps hps
    induction ps with
    | nil => cases hps
    | cons p rest ih =>
        rw [Assoc.get?] at hps
        split at hps
        · rename_i hkey
          obtain rfl := Option.some.inj hps
          exact hkey ▸ List.mem_cons_self
        · exact List.mem_cons_of_mem _ (ih hps)
  exact hall m.toList h

/-- The pairs of a map are its keys with what is found under them. -/
theorem mem_toList_iff {m : OrderedMap κ α} {k : κ} {v : α} :
    (k, v) ∈ m.toList ↔ m.get? k = some v :=
  ⟨Assoc.get?_of_mem m.nodup_keys, mem_of_get?⟩

/-- Writing all pairs of a map gives the map. -/
theorem ofList_toList (m : OrderedMap κ α) : ofList m.toList = m :=
  ext (Assoc.ofList_of_nodup m.nodup_keys)

/-- A map holds nothing but the pairs that have been written. -/
theorem mem_of_mem_foldl_put {ps : List (κ × α)} {m : OrderedMap κ α} {p : κ × α}
    (h : p ∈ (ps.foldl (fun m p => m.put p.1 p.2) m).toList) : p ∈ m.toList ∨ p ∈ ps := by
  induction ps generalizing m with
  | nil => exact .inl h
  | cons q rest ih =>
      rcases ih h with h | h
      · rcases Assoc.mem_of_mem_put h with rfl | h
        · exact .inr List.mem_cons_self
        · exact .inl h
      · exact .inr (List.mem_cons_of_mem _ h)

/-- A map made from pairs has no other pairs. -/
theorem mem_of_mem_ofList {ps : List (κ × α)} {p : κ × α} (h : p ∈ (ofList ps).toList) :
    p ∈ ps := by
  have hfold := foldl_put_ofList [] ps
  rw [List.nil_append] at hfold
  rw [← hfold] at h
  exact (mem_of_mem_foldl_put h).resolve_left (by simp [ofList, Assoc.ofList])

/-- Changing the values of a map keeps its keys. -/
theorem get?_ofList_map (f : α → β) (m : OrderedMap κ α) (k : κ) :
    (ofList (m.toList.map fun p => (p.1, f p.2))).get? k = (m.get? k).map f := by
  have hkeys : (Assoc.keys (m.toList.map fun p => (p.1, f p.2))).Nodup := by
    simpa [Assoc.keys, Function.comp_def] using m.nodup_keys
  have hlist : (ofList (m.toList.map fun p => (p.1, f p.2))).toList =
      m.toList.map fun p => (p.1, f p.2) := Assoc.ofList_of_nodup hkeys
  rw [get?, hlist, Assoc.get?_map]
  rfl

/-- Under each key the last pair counts. -/
theorem get?_ofList (ps : List (κ × α)) (k : κ) :
    (ofList ps).get? k = ((ps.filter fun p => p.1 = k).getLast?).map Prod.snd := by
  induction ps using List.reverseRecOn with
  | nil => rfl
  | append_singleton ps p ih =>
      rw [ofList_concat, get?_put, List.filter_append]
      by_cases hk : p.1 = k
      · simp [hk]
      · simp [hk, ih]

theorem get?_ofList_eq_none {ps : List (κ × α)} {k : κ} (h : ∀ p ∈ ps, p.1 ≠ k) :
    (ofList ps).get? k = none := by
  have hnone : ps.filter (fun p => p.1 = k) = [] :=
    List.filter_eq_nil_iff.2 fun p hp => by simpa using h p hp
  rw [get?_ofList, hnone]
  rfl

/-- Whatever has been written under a key, there is a value. -/
theorem isSome_get?_ofList {ps : List (κ × α)} {k : κ} (h : k ∈ ps.map Prod.fst) :
    ((ofList ps).get? k).isSome = true := by
  obtain ⟨p, hp, hk⟩ := List.mem_map.1 h
  have hne : ps.filter (fun p => p.1 = k) ≠ [] :=
    List.ne_nil_of_mem (List.mem_filter.2 ⟨hp, by simpa using hk⟩)
  rw [get?_ofList, Option.isSome_map, List.getLast?_isSome]
  exact hne

/-- A pair counts if every pair of its key is the same. -/
theorem get?_ofList_of_unique {ps : List (κ × α)} {k : κ} {v : α} (hmem : (k, v) ∈ ps)
    (h : ∀ w, (k, w) ∈ ps → w = v) : (ofList ps).get? k = some v := by
  obtain ⟨w, hw⟩ := Option.isSome_iff_exists.1 (isSome_get?_ofList (List.mem_map_of_mem hmem))
  rw [hw, h w (mem_of_mem_ofList (mem_of_get? hw))]

/-- Items with names of their own leave at most one pair each, under their names. -/
theorem get?_ofList_filterMap {ι : Type x} {items : List ι} {name : ι → κ}
    (hnodup : (items.map name).Nodup) {pair? : ι → Option (κ × α)}
    (hname : ∀ i p, pair? i = some p → p.1 = name i) (k : κ) :
    (ofList (items.filterMap pair?)).get? k =
      (items.find? fun i => name i = k).bind fun i => (pair? i).map Prod.snd := by
  have hfrom : ∀ p ∈ items.filterMap pair?, ∃ i ∈ items, pair? i = some p ∧ name i = p.1 := by
    intro p hp
    obtain ⟨i, hi, hpair⟩ := List.mem_filterMap.1 hp
    exact ⟨i, hi, hpair, (hname i p hpair).symm⟩
  cases hfind : items.find? fun i => name i = k with
  | none =>
      refine get?_ofList_eq_none fun p hp hk => ?_
      obtain ⟨i, hi, -, hik⟩ := hfrom p hp
      exact List.find?_eq_none.1 hfind i hi (by simpa using hik.trans hk)
  | some i =>
      have hi : i ∈ items := List.mem_of_find?_eq_some hfind
      have hik : name i = k := by simpa using List.find?_some hfind
      -- names are distinct, so no other item gives an entry under this key
      have honly : ∀ p ∈ items.filterMap pair?, p.1 = k → pair? i = some p := by
        intro p hp hk
        obtain ⟨i', hi', hpair, hname'⟩ := hfrom p hp
        have hsame : i' = i :=
          List.inj_on_of_nodup_map hnodup hi' hi (hname'.trans (hk.trans hik.symm))
        rw [← hsame, hpair]
      cases hpair : pair? i with
      | none =>
          rw [Option.bind_some, hpair, Option.map_none]
          refine get?_ofList_eq_none fun p hp hk => ?_
          rw [honly p hp hk] at hpair
          cases hpair
      | some p =>
          have hp : p = (k, p.2) := Prod.ext ((hname i p hpair).trans hik) rfl
          rw [Option.bind_some, hpair, Option.map_some]
          refine get?_ofList_of_unique ?_ fun w hw => ?_
          · exact hp ▸ List.mem_filterMap.2 ⟨i, hi, hpair⟩
          · have hsame := Option.some.inj (hpair.symm.trans (honly (k, w) hw rfl))
            rw [hsame]

end OrderedMap
end Recast
