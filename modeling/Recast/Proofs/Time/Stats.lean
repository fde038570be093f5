import Mathlib.Algebra.Group.Action.Defs
import Mathlib.Algebra.Order.BigOperators.Group.List
import Mathlib.Algebra.Order.Ring.Nat
import Mathlib.Data.List.Induction
import Recast.Time.Stats

/-!
# Stats — what recorded durations add up to

Durations can be recorded exactly if a duration can hold their sum, `ofList?_eq`.  Then the stats tell
their number, their sum, the least and the greatest of them, whatever their order, and the mean lies
between these two and less than a nanosecond below the true one: `TimingStats.tells_recorded`.

* `TimingStats.Extreme` — a duration is an outermost one of several, or there are none;
* `TimingStats.Tells` — stats say what is true of durations, kept by every duration more.
-/

namespace Recast
namespace TimingStats

variable {t : TimingStats} {ds es : List Duration}

/-- One of several durations that is related to all of them, such as the least; there is none only of
no durations. -/
def Extreme (rel : Nat → Nat → Prop) (ds : List Duration) : Option Duration → Prop
  | none => ds = []
  | some m => m ∈ ds ∧ ∀ d ∈ ds, rel m.nanos d.nanos

/-- Stats tell the number of durations, their sum, and the least and the greatest of them. -/
structure Tells (t : TimingStats) (ds : List Duration) : Prop where
  count : t.count = ds.length
  total : t.total.nanos = (ds.map Duration.nanos).sum
  least : Extreme (· ≤ ·) ds t.least
  greatest : Extreme (· ≥ ·) ds t.greatest

theorem Extreme.exists_of_ne_nil {rel : Nat → Nat → Prop} {m? : Option Duration}
    (h : Extreme rel ds m?) (hne : ds ≠ []) : ∃ m, m? = some m := by
  cases m? with
  | none => exact absurd h hne
  | some m => exact ⟨m, rfl⟩

/-! ## One duration more -/

/-- Of an extreme duration and another one, the one that is picked is extreme among all. -/
theorem Extreme.concat {rel : Nat → Nat → Prop} {pick : Nat → Nat → Nat} {m? : Option Duration}
    (h : Extreme rel ds m?) (hrefl : ∀ a, rel a a) (htrans : ∀ {a b c}, rel a b → rel b c → rel a c)
    (hpick : ∀ a b, pick a b = a ∨ pick a b = b) (hleft : ∀ a b, rel (pick a b) a)
    (hright : ∀ a b, rel (pick a b) b) (d : Duration) :
    Extreme rel (ds ++ [d])
      (some ⟨(m?.map Duration.nanos).elim d.nanos (pick d.nanos)⟩) := by
  cases m? with
  | none =>
      obtain rfl : ds = [] := h
      exact ⟨List.mem_singleton_self d, by simpa using hrefl d.nanos⟩
  | some m =>
      obtain ⟨hm, hall⟩ := h
      have hmem : (⟨pick d.nanos m.nanos⟩ : Duration) ∈ ds ++ [d] := by
        rcases hpick d.nanos m.nanos with hd | hold
        · simp [hd]
        · simp [hold, hm]
      refine ⟨hmem, fun e he => ?_⟩
      -- what is picked is related to both, and through the old one to all before
      rcases List.mem_append.1 he with hold | hnew
      · exact htrans (hright d.nanos m.nanos) (hall e hold)
      · obtain rfl := List.mem_singleton.1 hnew
        exact hleft e.nanos m.nanos

/-- One more duration keeps what stats tell. -/
theorem Tells.record (h : t.Tells ds) (d : Duration) : (t.record d).Tells (ds ++ [d]) where
  count := by simp [TimingStats.record, h.count]
  total := by simp [TimingStats.record, h.total]
  least := h.least.concat Nat.le_refl Nat.le_trans min_choice Nat.min_le_left Nat.min_le_right d
  greatest := by
    have htrans : ∀ {a b c : Nat}, b ≤ a → c ≤ b → c ≤ a := fun hab hbc => Nat.le_trans hbc hab
    exact h.greatest.concat Nat.le_refl htrans max_choice Nat.le_max_left Nat.le_max_right d

/-- Durations may be recorded in any order. -/
theorem record_comm (t : TimingStats) (d e : Duration) :
    (t.record d).record e = (t.record e).record d := by
  obtain ⟨count, total, least, greatest⟩ := t
  cases least <;> cases greatest <;>
    simp [record, Nat.add_right_comm, Nat.min_comm, Nat.max_comm, Nat.min_left_comm,
      Nat.max_left_comm]

/-! ## Durations one after the other -/

theorem ofList_concat (ds : List Duration) (d : Duration) :
    ofList (ds ++ [d]) = (ofList ds).record d :=
  List.foldl_append

/-- Stats tell what has been recorded. -/
theorem tells_ofList (ds : List Duration) : (ofList ds).Tells ds := by
  induction ds using List.reverseRecOn with
  | nil => exact ⟨rfl, rfl, rfl, rfl⟩
  | append_singleton ds d ih =>
      rw [ofList_concat]
      exact ih.record d

/-- The order of durations does not matter. -/
theorem ofList_eq_of_perm (h : ds.Perm es) : ofList ds = ofList es :=
  h.foldl_eq' (fun d _ e _ t => record_comm t d e) empty

/-- No duration on the way is refused if the sum of all can be held. -/
theorem ofList?_eq (ds : List Duration) :
    ofList? ds =
      if (ds.map Duration.nanos).sum ≤ Duration.longest.nanos then some (ofList ds) else none := by
  induction ds using List.reverseRecOn with
  | nil => rfl
  | append_singleton ds d ih =>
      have hlast : ofList? (ds ++ [d]) = (ofList? ds).bind (·.record? d) := by
        simp [ofList?, List.foldlM_append]
      rw [hlast, ih, List.map_append, List.sum_append, List.map_singleton, List.sum_singleton]
      by_cases hsum : (ds.map Duration.nanos).sum ≤ Duration.longest.nanos
      · rw [if_pos hsum, Option.bind_some, record?, (tells_ofList ds).total, ofList_concat]
      · rw [if_neg hsum, Option.bind_none, if_neg (by omega)]

/-! ## The mean -/

namespace Tells

/-- No duration is shorter than the least, so the total is no shorter than that many of it. -/
theorem least_mul_le (h : t.Tells ds) {least : Duration} (hleast : t.least = some least) :
    least.nanos * t.count ≤ t.total.nanos := by
  have hall : ∀ n ∈ ds.map Duration.nanos, least.nanos ≤ n :=
    List.forall_mem_map.2 (hleast ▸ h.least).2
  have hsum := List.card_nsmul_le_sum _ least.nanos hall
  rwa [List.length_map, smul_eq_mul, ← h.count, ← h.total, Nat.mul_comm] at hsum

/-- The total is no longer than that many of the greatest. -/
theorem le_greatest_mul (h : t.Tells ds) {greatest : Duration}
    (hgreatest : t.greatest = some greatest) : t.total.nanos ≤ greatest.nanos * t.count := by
  have hall : ∀ n ∈ ds.map Duration.nanos, n ≤ greatest.nanos :=
    List.forall_mem_map.2 (hgreatest ▸ h.greatest).2
  have hsum := List.sum_le_card_nsmul _ greatest.nanos hall
  rwa [List.length_map, smul_eq_mul, ← h.count, ← h.total, Nat.mul_comm] at hsum

/-- There is a mean, which is the total divided by the count and rounded down. -/
theorem exists_mean (h : t.Tells ds) (hne : ds ≠ []) (hlen : ds.length ≤ Count.max32) :
    ∃ mean, t.mean? = some mean ∧ 0 < t.count ∧ mean.nanos = t.total.nanos / t.count := by
  have hpos : 0 < t.count := h.count ▸ List.length_pos_iff.2 hne
  have hcount : ¬(t.count = 0 ∨ Count.max32 < t.count) := by
    rw [h.count] at hpos ⊢
    omega
  exact ⟨t.total.part t.count, if_neg hcount, hpos, Duration.nanos_part t.total hpos⟩

end Tells

/-- Durations whose sum a duration can hold are all recorded.  The stats tell their number, their sum,
the least and the greatest of them, and for a number of at most 32 bits a mean, which lies between
the least and the greatest; it gives no more than the sum, and a nanosecond longer it would give more.
In any other order the durations give the same stats. -/
theorem tells_recorded (ds : List Duration) (hne : ds ≠ []) (hlen : ds.length ≤ Count.max32)
    (hsum : (ds.map Duration.nanos).sum ≤ Duration.longest.nanos) :
    ∃ t, ofList? ds = some t ∧ t.Tells ds ∧ (∀ es, ds.Perm es → ofList? es = some t) ∧
      ∃ least mean greatest, t.least = some least ∧ t.mean? = some mean ∧
        t.greatest = some greatest ∧ least.nanos ≤ mean.nanos ∧ mean.nanos ≤ greatest.nanos ∧
        mean.nanos * t.count ≤ t.total.nanos ∧ t.total.nanos < (mean.nanos + 1) * t.count := by
  have h : (ofList ds).Tells ds := tells_ofList ds
  have hheld : ofList? ds = some (ofList ds) := by rw [ofList?_eq, if_pos hsum]
  have hperm : ∀ es, ds.Perm es → ofList? es = some (ofList ds) := by
    intro es hes
    rw [ofList?_eq, if_pos ((hes.map Duration.nanos).sum_eq ▸ hsum), ofList_eq_of_perm hes]
  obtain ⟨least, hleast⟩ := h.least.exists_of_ne_nil hne
  obtain ⟨greatest, hgreatest⟩ := h.greatest.exists_of_ne_nil hne
  obtain ⟨mean, hmean, hpos, hquotient⟩ := h.exists_mean hne hlen
  refine ⟨ofList ds, hheld, h, hperm, least, mean, greatest, hleast, hmean, hgreatest, ?_⟩
  -- the mean is a quotient, so its bounds are those of a division
  rw [hquotient]
  refine ⟨?_, ?_, Nat.div_mul_le_self _ _, ?_⟩
  · exact (Nat.le_div_iff_mul_le hpos).2 (h.least_mul_le hleast)
  · exact Nat.div_le_of_le_mul (Nat.mul_comm _ _ ▸ h.le_greatest_mul hgreatest)
  · exact Nat.mul_comm _ _ ▸ Nat.lt_mul_div_succ _ hpos

/-- The seconds that are left over are divided together with the nanoseconds. -/
theorem tells_recorded_carried :
    let ds : List Duration := [.ofParts 1 0, .ofParts 0 1, .ofParts 0 1]
    ds ≠ [] ∧ ds.length ≤ Count.max32 ∧ (ds.map Duration.nanos).sum ≤ Duration.longest.nanos ∧
      ∃ t, ofList? ds = some t ∧ t.Tells ds ∧ t.mean? = some (.ofParts 0 333333334) ∧
        ofList? [.ofParts 0 1, .ofParts 1 0, .ofParts 0 1] = some t := by
  refine ⟨by decide, by decide, by decide, ?_⟩
  obtain ⟨t, ht, htells, hperm, -⟩ := tells_recorded [.ofParts 1 0, .ofParts 0 1, .ofParts 0 1]
    (by decide) (by decide) (by decide)
  refine ⟨t, ht, htells, ?_, hperm _ (by decide)⟩
  obtain rfl : _ = t := Option.some.inj ht
  decide

end TimingStats
end Recast
