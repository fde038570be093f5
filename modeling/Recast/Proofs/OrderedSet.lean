import Mathlib.Data.List.Perm.Basic
import Recast.OrderedSet

/-!
# OrderedSet — unions

Uniting ordered sets is associative, the empty set is neutral and a set united with itself is the
set again: `union_assoc`, `empty_union`, `union_self`.  The order of a union is that of its first
members; the other way round the same members come in another order: `perm_union`.  Whether a new
member is inserted in front of others or behind them makes no difference exactly if none of these is
new, or it is the first one that is: `insertAll_insert_iff`.
-/

namespace Recast
namespace OrderedSet

variable {α : Type u} [DecidableEq α]

/-- A union has the members of both sets. -/
theorem mem_union {s t : OrderedSet α} {a : α} :
    a ∈ (s.union t).toList ↔ a ∈ s.toList ∨ a ∈ t.toList :=
  mem_insertAll

/-- The members of a set made from a list are those of the list. -/
theorem mem_ofList {as : List α} {a : α} : a ∈ (ofList as).toList ↔ a ∈ as := by
  rw [ofList, mem_insertAll]
  exact or_iff_right List.not_mem_nil

/-- Members that are there already change nothing. -/
theorem insertAll_of_subset {s : OrderedSet α} {as : List α} :
    as ⊆ s.toList → s.insertAll as = s := by
  intro hsubset
  induction as with
  | nil => rfl
  | cons a rest ih =>
      rcases List.cons_subset.1 hsubset with ⟨hmem, hrest⟩
      have hstep : s.insertAll (a :: rest) = (s.insert a).insertAll rest := rfl
      rw [hstep, insert_of_mem hmem]
      exact ih hrest

/-- Inserting keeps all members in their places. -/
theorem prefix_insert (s : OrderedSet α) (a : α) : s.toList <+: (s.insert a).toList := by
  rw [toList_insert]
  split
  · exact List.prefix_refl _
  · exact List.prefix_append _ _

/-- The members of a set stay in front of those that are inserted. -/
theorem prefix_insertAll (s : OrderedSet α) (as : List α) : s.toList <+: (s.insertAll as).toList := by
  induction as generalizing s with
  | nil => exact List.prefix_refl _
  | cons a rest ih => exact (prefix_insert s a).trans (ih (s.insert a))

/-- A new member stands right behind those of the set, if it is inserted first. -/
theorem prefix_insertAll_cons {s : OrderedSet α} {a : α} (h : a ∉ s.toList) (as : List α) :
    s.toList ++ [a] <+: (s.insertAll (a :: as)).toList := by
  have hinsert : (s.insert a).toList = s.toList ++ [a] := by rw [toList_insert, if_neg h]
  exact hinsert ▸ prefix_insertAll (s.insert a) as

/-- A member may be inserted in front of others or behind them if it is there, and else exactly if none
of these is new or it is the first new one. -/
theorem insertAll_insert_iff (s : OrderedSet α) (a : α) (as : List α) :
    s.insertAll (a :: as) = (s.insertAll as).insert a ↔
      a ∈ s.toList ∨ ∀ b, as.find? (fun b => b ∉ s.toList) = some b → b = a := by
  have hcons : ∀ b bs, s.insertAll (b :: bs) = (s.insert b).insertAll bs := fun _ _ => rfl
  by_cases ha : a ∈ s.toList
  · rw [hcons, insert_of_mem ha, insert_of_mem ((prefix_insertAll s as).subset ha)]
    exact iff_of_true rfl (.inl ha)
  rw [or_iff_right ha]
  cases hfind : as.find? fun b => b ∉ s.toList with
  | none =>
      have hsubset : as ⊆ s.toList := by
        intro b hb
        simpa using List.find?_eq_none.1 hfind b hb
      have hsubset' : as ⊆ (s.insert a).toList := fun _ hb => subset_insert s a (hsubset hb)
      rw [hcons, insertAll_of_subset hsubset', insertAll_of_subset hsubset]
      simp
  | some b =>
      obtain ⟨hb, before, after, rfl, hbefore⟩ := List.find?_eq_some_iff_append.1 hfind
      have hnew : b ∉ s.toList := by simpa using hb
      have hsubset : before ⊆ s.toList := by
        intro c hc
        simpa using hbefore c hc
      -- what stands in front of the first new one changes nothing
      have hskip : s.insertAll (before ++ b :: after) = s.insertAll (b :: after) := by
        rw [insertAll_append, insertAll_of_subset hsubset]
      rw [hskip]
      constructor
      · rintro heq c ⟨⟩
        have hfront := prefix_insertAll_cons ha (before ++ b :: after)
        have hback := (prefix_insertAll_cons hnew after).trans (prefix_insert _ a)
        rw [heq] at hfront
        have hsame := List.prefix_of_prefix_length_le hback hfront (by simp)
        simpa using hsame
      · intro h
        obtain rfl := h b rfl
        have hmem : b ∈ (s.insertAll (b :: after)).toList :=
          (prefix_insertAll (s.insert b) after).subset (mem_insert.2 (.inr rfl))
        have hthere : b ∈ (s.insert b).toList := mem_insert.2 (.inr rfl)
        have hsubset' : before ⊆ (s.insert b).toList := fun _ hc => subset_insert s b (hsubset hc)
        calc s.insertAll (b :: (before ++ b :: after))
            = ((s.insert b).insertAll before).insertAll (b :: after) := by
                rw [hcons, insertAll_append]
          _ = (s.insert b).insertAll (b :: after) := by rw [insertAll_of_subset hsubset']
          _ = ((s.insert b).insert b).insertAll after := rfl
          _ = s.insertAll (b :: after) := by rw [insert_of_mem hthere, hcons]
          _ = (s.insertAll (b :: after)).insert b := (insert_of_mem hmem).symm

theorem union_insertAll (s t : OrderedSet α) (as : List α) :
    s.union (t.insertAll as) = (s.union t).insertAll as := by
  induction as generalizing t with
  | nil => rfl
  | cons a rest ih =>
      calc
        s.union ((t.insert a).insertAll rest)
            = (s.union (t.insert a)).insertAll rest := ih (t.insert a)
        _ = ((s.union t).insert a).insertAll rest := by rw [union_insert]

/-- Sets can be united in any grouping, the order of members included. -/
theorem union_assoc (s t u : OrderedSet α) : (s.union t).union u = s.union (t.union u) :=
  (union_insertAll s t u.toList).symm

theorem empty_union (s : OrderedSet α) : empty.union s = s :=
  ofList_toList s

/-- Uniting a set with itself changes nothing. -/
theorem union_self (s : OrderedSet α) : s.union s = s :=
  insertAll_of_subset fun _ h => h

/-- Two sets have the same members united in either order. -/
theorem perm_union (s t : OrderedSet α) : (s.union t).toList.Perm (t.union s).toList := by
  rw [List.perm_ext_iff_of_nodup (s.union t).nodup (t.union s).nodup]
  intro a
  rw [mem_union, mem_union, or_comm]

end OrderedSet
end Recast
