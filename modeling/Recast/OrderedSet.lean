/-!
# OrderedSet — finite sets in first-seen order

An `OrderedSet` is a list without repetitions, by a proof field.  `insert` appends a new member
and leaves a known one where it is; `union` inserts the members of a list one after the other.
-/

namespace Recast

/-- A finite set that lists its members in the order in which they were first inserted. -/
structure OrderedSet (α : Type u) where
  toList : List α
  nodup : toList.Nodup

namespace OrderedSet

variable {α : Type u} [DecidableEq α]

omit [DecidableEq α] in
theorem ext {s t : OrderedSet α} (h : s.toList = t.toList) : s = t := by
  cases s
  cases t
  cases h
  rfl

instance : DecidableEq (OrderedSet α) := fun s t =>
  decidable_of_iff (s.toList = t.toList) ⟨ext, fun h => h ▸ rfl⟩

def empty : OrderedSet α := ⟨[], List.nodup_nil⟩

instance : Inhabited (OrderedSet α) := ⟨empty⟩

instance : Membership α (OrderedSet α) := ⟨fun s a => a ∈ s.toList⟩

instance (s : OrderedSet α) (a : α) : Decidable (a ∈ s) :=
  inferInstanceAs (Decidable (a ∈ s.toList))

def size (s : OrderedSet α) : Nat := s.toList.length

/-- Insert a member at the end, unless it is there already. -/
def insert (s : OrderedSet α) (a : α) : OrderedSet α :=
  if h : a ∈ s then s
  else ⟨s.toList ++ [a], List.nodup_append.2 ⟨s.nodup, by simp, by
    intro b hb c hc
    simp only [List.mem_singleton] at hc
    subst hc
    exact fun e => h (e ▸ hb)⟩⟩

def insertAll (s : OrderedSet α) (as : List α) : OrderedSet α :=
  as.foldl insert s

/-- The members of a list, each at its first place. -/
def ofList (as : List α) : OrderedSet α :=
  insertAll empty as

/-- Add the members of a second set behind those of the first. -/
def union (s t : OrderedSet α) : OrderedSet α :=
  s.insertAll t.toList

/-! ## Laws -/

/-- A new member goes behind all others. -/
theorem toList_insert (s : OrderedSet α) (a : α) :
    (s.insert a).toList = if a ∈ s.toList then s.toList else s.toList ++ [a] := by
  unfold insert
  by_cases h : a ∈ s
  · have h' : a ∈ s.toList := h
    simp [h, h']
  · have h' : ¬ a ∈ s.toList := h
    simp [h, h']

/-- Inserting adds one member and takes none away. -/
theorem mem_insert {s : OrderedSet α} {a b : α} : b ∈ (s.insert a).toList ↔ b ∈ s.toList ∨ b = a := by
  rw [toList_insert]
  split
  · rename_i h
    constructor
    · exact Or.inl
    · intro hb
      cases hb with
      | inl hb => exact hb
      | inr hb => exact hb ▸ h
  · simp

theorem subset_insert (s : OrderedSet α) (a : α) : s.toList ⊆ (s.insert a).toList :=
  fun _ h => mem_insert.2 (.inl h)

omit [DecidableEq α] in
@[simp] theorem mem_iff {s : OrderedSet α} {a : α} : a ∈ s ↔ a ∈ s.toList := Iff.rfl

/-- Inserting a member changes nothing. -/
theorem insert_of_mem {s : OrderedSet α} {a : α} (h : a ∈ s.toList) : s.insert a = s :=
  ext (by rw [toList_insert, if_pos h])

theorem insertAll_append (s : OrderedSet α) (as bs : List α) :
    s.insertAll (as ++ bs) = (s.insertAll as).insertAll bs :=
  List.foldl_append

theorem ofList_concat (as : List α) (a : α) : ofList (as ++ [a]) = (ofList as).insert a :=
  insertAll_append empty as [a]

/-- Inserting a list adds its members and takes none away. -/
theorem mem_insertAll {s : OrderedSet α} {as : List α} {a : α} :
    a ∈ (s.insertAll as).toList ↔ a ∈ s.toList ∨ a ∈ as := by
  induction as generalizing s with
  | nil => simp [insertAll]
  | cons b rest ih =>
      calc a ∈ (s.insertAll (b :: rest)).toList
          ↔ a ∈ ((s.insert b).insertAll rest).toList := Iff.rfl
        _ ↔ (a ∈ s.toList ∨ a = b) ∨ a ∈ rest := by rw [ih, mem_insert]
        _ ↔ a ∈ s.toList ∨ a ∈ b :: rest := by rw [List.mem_cons, or_assoc]

/-- Inserting the members of a set gives the set. -/
theorem ofList_toList (s : OrderedSet α) : ofList s.toList = s := by
  suffices h : ∀ (as : List α) (t : OrderedSet α), (t.toList ++ as).Nodup →
      (t.insertAll as).toList = t.toList ++ as from ext (h s.toList empty s.nodup)
  intro as
  induction as with
  | nil => simp [insertAll]
  | cons a rest ih =>
      intro t h
      have hnew : a ∉ t.toList := fun hmem => (List.nodup_append.1 h).2.2 a hmem a (by simp) rfl
      have hinsert : (t.insert a).toList = t.toList ++ [a] := by rw [toList_insert, if_neg hnew]
      have hrest := ih (t.insert a) (by simpa [hinsert] using h)
      rw [hinsert, List.append_assoc] at hrest
      exact hrest

/-- A union with one more member is the union with this member put behind it. -/
theorem union_insert (s t : OrderedSet α) (a : α) : s.union (t.insert a) = (s.union t).insert a := by
  unfold union
  rw [toList_insert]
  by_cases h : a ∈ t.toList
  · have hmem : a ∈ (s.insertAll t.toList).toList := mem_insertAll.2 (Or.inr h)
    rw [if_pos h, insert_of_mem hmem]
  · rw [if_neg h, insertAll_append]
    rfl

end OrderedSet
end Recast
