/-!
# Assoc — association lists that keep their first-seen order

A list of pairs stands for a finite map whose keys are listed in the order in which they were
first written.  This module defines

* `Assoc.get?` — the value written first under a key;
* `Assoc.put` — replace the value of a key in its place, or append a new key;
* `Assoc.erase` — drop a key, closing the gap;
* `Assoc.ofList` — write pairs one after the other into the empty map.

Main statements: `keys_put` (what a write does to the order of the keys), `get?_put` (what it
does to the values) and `nodup_keys_put` (keys stay distinct).
-/

namespace Recast
namespace Assoc

variable {κ : Type u} {α : Type v} [DecidableEq κ]

/-! ## Operations -/

def keys (m : List (κ × α)) : List κ :=
  m.map Prod.fst

def get? (k : κ) : List (κ × α) → Option α
  | [] => none
  | (k', v) :: rest => if k' = k then some v else get? k rest

/-- Write a value under a key: a known key keeps its place, a new one goes to the end. -/
def put (k : κ) (v : α) : List (κ × α) → List (κ × α)
  | [] => [(k, v)]
  | (k', v') :: rest => if k' = k then (k, v) :: rest else (k', v') :: put k v rest

def erase (k : κ) : List (κ × α) → List (κ × α)
  | [] => []
  | (k', v) :: rest => if k' = k then rest else (k', v) :: erase k rest

/-- Write all pairs in turn: of a repeated key the first place and the last value remain. -/
def ofList (pairs : List (κ × α)) : List (κ × α) :=
  pairs.foldl (fun m p => put p.1 p.2 m) []

/-! ## Laws -/

omit [DecidableEq κ] in
@[simp] theorem keys_nil : keys ([] : List (κ × α)) = [] := rfl

omit [DecidableEq κ] in
@[simp] theorem keys_cons (p : κ × α) (m : List (κ × α)) : keys (p :: m) = p.1 :: keys m := rfl

/-- Writing puts a new key behind all others, and leaves the places of known ones. -/
theorem keys_put (k : κ) (v : α) (m : List (κ × α)) :
    keys (put k v m) = if k ∈ keys m then keys m else keys m ++ [k] := by
  induction m with
  | nil => simp [put, keys]
  | cons p rest ih =>
      by_cases h : p.1 = k
      · simp [put, h]
      · have h' : ¬ k = p.1 := fun e => h e.symm
        simp only [put, h, if_false, keys_cons, ih, List.mem_cons, h', false_or]
        split <;> simp

/-- A map holds nothing but what has been written. -/
theorem mem_of_mem_put {k : κ} {v : α} {m : List (κ × α)} {p : κ × α} (h : p ∈ put k v m) :
    p = (k, v) ∨ p ∈ m := by
  induction m with
  | nil => exact .inl (List.mem_singleton.1 h)
  | cons q rest ih =>
      by_cases hq : q.1 = k
      · rw [put, if_pos hq] at h
        exact (List.mem_cons.1 h).imp_right fun hp => List.mem_cons_of_mem _ hp
      · rw [put, if_neg hq] at h
        rcases List.mem_cons.1 h with rfl | h
        · exact .inr List.mem_cons_self
        · exact (ih h).imp_right fun hp => List.mem_cons_of_mem _ hp

theorem nodup_keys_put {k : κ} {v : α} {m : List (κ × α)} (h : (keys m).Nodup) :
    (keys (put k v m)).Nodup := by
  rw [keys_put]
  split
  · exact h
  · rename_i hk
    exact List.nodup_append.2 ⟨h, by simp, by
      intro a ha b hb
      simp only [List.mem_singleton] at hb
      subst hb
      exact fun e => hk (e ▸ ha)⟩

/-- Under the key that has been written is its value, and under every other one what was there. -/
theorem get?_put (k k' : κ) (v : α) (m : List (κ × α)) :
    get? k' (put k v m) = if k = k' then some v else get? k' m := by
  induction m with
  | nil => simp [put, get?]
  | cons p rest ih =>
      by_cases h : p.1 = k
      · by_cases hk : k = k' <;> simp [put, get?, h, hk]
      · rw [put, if_neg h, get?, get?, ih]
        by_cases hp : p.1 = k'
        · rw [if_pos hp, if_pos hp, if_neg fun e => h (hp.trans e.symm)]
        · rw [if_neg hp, if_neg hp]

/-- There is no value just where there is no key. -/
theorem get?_eq_none_iff {k : κ} {m : List (κ × α)} : get? k m = none ↔ k ∉ keys m := by
  induction m with
  | nil => simp [get?]
  | cons p rest ih =>
      by_cases h : p.1 = k
      · simp [get?, h]
      · have h' : ¬ k = p.1 := fun e => h e.symm
        simp [get?, h, h', ih]

/-- A pair of a list whose keys are distinct is what is found under its key. -/
theorem get?_of_mem {k : κ} {v : α} {m : List (κ × α)} (hm : (keys m).Nodup)
    (h : (k, v) ∈ m) : get? k m = some v := by
  induction m with
  | nil => cases h
  | cons p rest ih =>
      obtain ⟨hnot, hnodup⟩ := List.nodup_cons.1 hm
      rcases List.mem_cons.1 h with rfl | h
      · simp [get?]
      · have hne : p.1 ≠ k := fun e => hnot (e ▸ List.mem_map_of_mem h)
        rw [get?, if_neg hne]
        exact ih hnodup h

/-- The keys in their order and the values under them are all there is to a map. -/
theorem ext_get? {m n : List (κ × α)} (hm : (keys m).Nodup) (hkeys : keys m = keys n)
    (hget : ∀ k, get? k m = get? k n) : m = n := by
  induction m generalizing n with
  | nil =>
      cases n with
      | nil => rfl
      | cons q rest => exact absurd hkeys (by simp)
  | cons p rest ih =>
      cases n with
      | nil => exact absurd hkeys (by simp)
      | cons q more =>
          obtain ⟨hfirst, hrest⟩ : p.1 = q.1 ∧ keys rest = keys more := by simpa using hkeys
          obtain ⟨hnot, hnodup⟩ := List.nodup_cons.1 hm
          have hvalue : p.2 = q.2 := by simpa [get?, hfirst] using hget q.1
          have htail : rest = more := by
            refine ih hnodup hrest fun k => ?_
            by_cases hk : p.1 = k
            · -- the first key occurs in neither rest
              have hnone : k ∉ keys rest := hk ▸ hnot
              rw [get?_eq_none_iff.2 hnone, get?_eq_none_iff.2 (hrest ▸ hnone)]
            · have hq : ¬ q.1 = k := fun e => hk (hfirst.trans e)
              simpa [get?, hk, hq] using hget k
          rw [htail, Prod.ext hfirst hvalue]

theorem keys_erase (k : κ) (m : List (κ × α)) : keys (erase k m) = (keys m).erase k := by
  induction m with
  | nil => rfl
  | cons p rest ih =>
      by_cases h : p.1 = k
      · simp [erase, h]
      · simp [erase, h, ih]

theorem nodup_keys_erase {k : κ} {m : List (κ × α)} (h : (keys m).Nodup) :
    (keys (erase k m)).Nodup := by
  rw [keys_erase]
  exact h.erase k

/-- A key that has been dropped has no value, and every other one keeps its own. -/
theorem get?_erase {m : List (κ × α)} (h : (keys m).Nodup) (k k' : κ) :
    get? k' (erase k m) = if k = k' then none else get? k' m := by
  by_cases hk : k = k'
  · have hnot : k' ∉ keys (erase k m) := by
      rw [keys_erase, ← hk]
      exact h.not_mem_erase
    rw [if_pos hk, get?_eq_none_iff.2 hnot]
  · -- only the pair of the key has been taken out
    rw [if_neg hk]
    induction m with
    | nil => rfl
    | cons p rest ih =>
        rw [erase]
        split
        · rename_i hp
          have hne : ¬ p.1 = k' := fun e => hk (hp.symm.trans e)
          rw [get?, if_neg hne]
        · rw [get?, get?, ih (List.nodup_cons.1 h).2]

theorem nodup_keys_ofList (pairs : List (κ × α)) : (keys (ofList pairs)).Nodup := by
  suffices h : ∀ m : List (κ × α), (keys m).Nodup →
      (keys (pairs.foldl (fun m p => put p.1 p.2 m) m)).Nodup from h [] List.nodup_nil
  induction pairs with
  | nil => exact fun _ h => h
  | cons p rest ih => exact fun m h => ih _ (nodup_keys_put h)

/-- The last pair is written last. -/
theorem ofList_concat (ps : List (κ × α)) (p : κ × α) :
    ofList (ps ++ [p]) = put p.1 p.2 (ofList ps) := by
  simp [ofList]

/-- A new key goes to the end. -/
theorem put_of_not_mem {k : κ} {m : List (κ × α)} (v : α) (h : k ∉ keys m) :
    put k v m = m ++ [(k, v)] := by
  induction m with
  | nil => rfl
  | cons p rest ih =>
      obtain ⟨hfirst, hrest⟩ : k ≠ p.1 ∧ k ∉ keys rest := by simpa using h
      calc put k v (p :: rest) = p :: put k v rest := by rw [put, if_neg hfirst.symm]
        _ = p :: rest ++ [(k, v)] := by rw [ih hrest, List.cons_append]

/-- Writing pairs of distinct keys keeps them as they are. -/
theorem ofList_of_nodup {ps : List (κ × α)} (h : (keys ps).Nodup) : ofList ps = ps := by
  -- the pairs are added to what is there already, and all keys differ
  suffices hfold : ∀ m : List (κ × α), (keys (m ++ ps)).Nodup →
      ps.foldl (fun m p => put p.1 p.2 m) m = m ++ ps from hfold [] h
  clear h
  induction ps with
  | nil => simp
  | cons p rest ih =>
      intro m h
      have hnew : p.1 ∉ keys m := by
        intro hmem
        rw [keys, List.map_append, List.nodup_append] at h
        exact h.2.2 p.1 hmem p.1 (by simp) rfl
      have hrest : (keys ((m ++ [p]) ++ rest)).Nodup := by simpa using h
      calc (p :: rest).foldl (fun m p => put p.1 p.2 m) m
          = rest.foldl (fun m p => put p.1 p.2 m) (m ++ [p]) := by
            rw [List.foldl_cons, put_of_not_mem _ hnew]
        _ = m ++ [p] ++ rest := ih (m ++ [p]) hrest
        _ = m ++ p :: rest := List.append_cons m p rest |>.symm

/-- Changing all values changes what is found under a key. -/
theorem get?_map (f : α → β) (k : κ) (m : List (κ × α)) :
    get? k (m.map fun p => (p.1, f p.2)) = (get? k m).map f := by
  induction m with
  | nil => rfl
  | cons p rest ih =>
      by_cases h : p.1 = k <;> simp [get?, h, ih]

end Assoc
end Recast
