import Recast.Assoc

/-!
# OrderedMap — finite maps in first-seen order

An `OrderedMap` is an association list whose keys are distinct, by a proof field.  Its view is
`OrderedMap.toList`; each operation is stated through it.
-/

namespace Recast

/-- A finite map that lists its keys in the order in which they were first written. -/
structure OrderedMap (κ : Type u) (α : Type v) where
  toList : List (κ × α)
  nodup_keys : (Assoc.keys toList).Nodup

namespace OrderedMap

variable {κ : Type u} {α : Type v} [DecidableEq κ]

omit [DecidableEq κ] in
theorem ext {m n : OrderedMap κ α} (h : m.toList = n.toList) : m = n := by
  cases m
  cases n
  cases h
  rfl

instance [DecidableEq α] : DecidableEq (OrderedMap κ α) := fun m n =>
  decidable_of_iff (m.toList = n.toList) ⟨ext, fun h => h ▸ rfl⟩

def empty : OrderedMap κ α := ⟨[], List.nodup_nil⟩

instance : Inhabited (OrderedMap κ α) := ⟨empty⟩

def keys (m : OrderedMap κ α) : List κ := Assoc.keys m.toList

def values (m : OrderedMap κ α) : List α := m.toList.map Prod.snd

def size (m : OrderedMap κ α) : Nat := m.toList.length

def get? (m : OrderedMap κ α) (k : κ) : Option α := Assoc.get? k m.toList

def contains (m : OrderedMap κ α) (k : κ) : Bool := (m.get? k).isSome

/-- Write a value: a known key keeps its place. -/
def put (m : OrderedMap κ α) (k : κ) (v : α) : OrderedMap κ α :=
  ⟨Assoc.put k v m.toList, Assoc.nodup_keys_put m.nodup_keys⟩

def erase (m : OrderedMap κ α) (k : κ) : OrderedMap κ α :=
  ⟨Assoc.erase k m.toList, Assoc.nodup_keys_erase m.nodup_keys⟩

def ofList (pairs : List (κ × α)) : OrderedMap κ α :=
  ⟨Assoc.ofList pairs, Assoc.nodup_keys_ofList pairs⟩

/-! ## Laws -/

/-- Under the key that has been written is its value, and under every other one what was there. -/
theorem get?_put (m : OrderedMap κ α) (k k' : κ) (v : α) :
    (m.put k v).get? k' = if k = k' then some v else m.get? k' :=
  Assoc.get?_put k k' v m.toList

/-- A key that has been dropped has no value, and every other one keeps its own. -/
theorem get?_erase (m : OrderedMap κ α) (k k' : κ) :
    (m.erase k).get? k' = if k = k' then none else m.get? k' :=
  Assoc.get?_erase m.nodup_keys k k'

/-- A new key goes behind all others, and a known one keeps its place. -/
theorem keys_put (m : OrderedMap κ α) (k : κ) (v : α) :
    (m.put k v).keys = if k ∈ m.keys then m.keys else m.keys ++ [k] :=
  Assoc.keys_put k v m.toList

theorem get?_eq_none_iff {m : OrderedMap κ α} {k : κ} : m.get? k = none ↔ k ∉ m.keys :=
  Assoc.get?_eq_none_iff

theorem ofList_concat (ps : List (κ × α)) (p : κ × α) :
    ofList (ps ++ [p]) = (ofList ps).put p.1 p.2 :=
  ext (Assoc.ofList_concat ps p)

/-- Writing pairs one after the other is writing all of them. -/
theorem foldl_put_ofList (ps qs : List (κ × α)) :
    qs.foldl (fun m p => m.put p.1 p.2) (ofList ps) = ofList (ps ++ qs) := by
  induction qs generalizing ps with
  | nil => simp
  | cons q rest ih =>
      calc (q :: rest).foldl (fun m p => m.put p.1 p.2) (ofList ps)
          = rest.foldl (fun m p => m.put p.1 p.2) (ofList (ps ++ [q])) := by
            rw [List.foldl_cons, ofList_concat]
        _ = ofList ((ps ++ [q]) ++ rest) := ih _
        _ = ofList (ps ++ q :: rest) := by rw [List.append_assoc, List.singleton_append]

/-- Maps with the same keys in the same order and the same values are the same. -/
theorem ext_get? {m n : OrderedMap κ α} (hkeys : m.keys = n.keys)
    (hget : ∀ k, m.get? k = n.get? k) : m = n :=
  ext (Assoc.ext_get? m.nodup_keys hkeys hget)

end OrderedMap
end Recast
