import Mathlib.Data.List.Find
import Mathlib.Data.List.Induction
import Mathlib.Data.List.Nodup
import Mathlib.Data.List.Pairwise
import Recast.Decoder.Basic

/-!
# Registry — decoders after registrations

A registry is known by the list of the decoders that have been registered, one after the other.  It
holds those that no later one of the same name has replaced, by falling priority, and those of equal
priority in the order of their registrations: `Registry.registrations_stand`.

* `Registry.standing` — the registrations that still count;
* `Registry.Reflects` — a registry holds them in this order, kept by every registration;
* `Registry.Foremost` — the decoder that is to be chosen for a document.
-/

namespace Recast
namespace Registry

variable {r : Registry} {ds : List Decoder} {d : Decoder} {input : String}

/-- The registrations that no later one of the same name has replaced, in their order. -/
def standing : List Decoder → List Decoder
  | [] => []
  | d :: later =>
      if d.name ∈ later.map Decoder.name then standing later else d :: standing later

/-- A registry holds what still counts of registrations, sorted by falling priority; decoders of one
priority are in the order of their registrations. -/
structure Reflects (r : Registry) (ds : List Decoder) : Prop where
  held : r.decoders.Perm (standing ds)
  falling : r.decoders.Pairwise fun d e => e.priority ≤ d.priority
  steady : ∀ p, (r.decoders.filter fun d => d.priority = p) =
    (standing ds).filter fun d => d.priority = p

/-- A decoder recognizes a document, no other decoder that does has a higher priority, and none in
front of it has the same. -/
structure Foremost (r : Registry) (input : String) (d : Decoder) : Prop where
  recognizes : d.recognizes input
  highest : ∀ e ∈ r.decoders, e.recognizes input → e.priority ≤ d.priority
  first : ∃ before after, r.decoders = before ++ d :: after ∧
    ∀ e ∈ before, e.recognizes input → e.priority ≠ d.priority

/-! ## One registration more -/

/-- One more registration replaces that of the same name, and stands behind the others. -/
theorem standing_concat (ds : List Decoder) (d : Decoder) :
    standing (ds ++ [d]) = ((standing ds).filter fun e => e.name ≠ d.name) ++ [d] := by
  induction ds with
  | nil => simp [standing]
  | cons e later ih =>
      rw [List.cons_append, standing, standing, ih]
      -- a decoder stands unless its name comes again, later on or at the new end
      by_cases hlater : e.name ∈ later.map Decoder.name
      · have hmem : e.name ∈ (later ++ [d]).map Decoder.name := by
          rw [List.map_append]
          exact List.mem_append_left _ hlater
        rw [if_pos hlater, if_pos hmem]
      · by_cases hname : e.name = d.name
        · have hmem : e.name ∈ (later ++ [d]).map Decoder.name := by simp [hname]
          rw [if_neg hlater, if_pos hmem, List.filter_cons_of_neg (by simp [hname])]
        · have hmem : e.name ∉ (later ++ [d]).map Decoder.name := by
            simpa [hname] using hlater
          rw [if_neg hlater, if_neg hmem, List.filter_cons_of_pos (by simp [hname]),
            List.cons_append]

/-- No two registrations that stand have one name. -/
theorem nodup_names_standing (ds : List Decoder) : ((standing ds).map Decoder.name).Nodup := by
  induction ds using List.reverseRecOn with
  | nil => exact List.nodup_nil
  | append_singleton ds d ih =>
      have hold : (((standing ds).filter fun e => e.name ≠ d.name).map Decoder.name).Nodup :=
        ih.sublist (List.filter_sublist.map Decoder.name)
      rw [standing_concat, List.map_append, List.map_singleton, List.nodup_append_comm,
        List.singleton_append, List.nodup_cons]
      exact ⟨by simp, hold⟩

/-- Of the registrations under a name the last one counts. -/
theorem find?_standing (ds : List Decoder) (name : String) :
    ((standing ds).find? fun d => d.name = name) = ds.reverse.find? fun d => d.name = name := by
  induction ds using List.reverseRecOn with
  | nil => rfl
  | append_singleton ds d ih =>
      rw [standing_concat, List.find?_append, List.reverse_append, List.reverse_singleton,
        List.singleton_append]
      by_cases hname : d.name = name
      · -- the earlier decoders of this name have been taken out
        have hnone : (((standing ds).filter fun e => e.name ≠ d.name).find?
            fun e => e.name = name) = none := by
          rw [List.find?_eq_none]
          intro e he
          have hother : e.name ≠ d.name := of_decide_eq_true (List.mem_filter.1 he).2
          simpa [hname] using hother
        rw [hnone, Option.none_or]
        simp [hname]
      · have hsame : (((standing ds).filter fun e => e.name ≠ d.name).find?
            fun e => e.name = name) = (standing ds).find? fun e => e.name = name := by
          rw [List.find?_filter]
          refine List.find?_congr fun e _ => ?_
          by_cases he : e.name = name <;> simp [he, Ne.symm hname]
        rw [hsame, ih]
        simp [hname]

/-! ## Decoders sorted by priority -/

/-- Decoders are ordered by priority, so that what precedes is transitive. -/
theorem mayPrecede_trans (d e f : Decoder) (hde : mayPrecede d e) (hef : mayPrecede e f) :
    mayPrecede d f :=
  decide_eq_true (Nat.le_trans (of_decide_eq_true hef) (of_decide_eq_true hde))

theorem mayPrecede_total (d e : Decoder) : mayPrecede d e || mayPrecede e d := by
  simpa [mayPrecede] using Nat.le_total e.priority d.priority

/-- Sorting makes priorities fall. -/
theorem falling_mergeSort (l : List Decoder) :
    (l.mergeSort mayPrecede).Pairwise fun d e => e.priority ≤ d.priority :=
  (List.pairwise_mergeSort mayPrecede_trans mayPrecede_total l).imp of_decide_eq_true

/-- Sorting leaves decoders of one priority in their order. -/
theorem filter_mergeSort (l : List Decoder) (p : Nat) :
    ((l.mergeSort mayPrecede).filter fun d => d.priority = p) =
      l.filter fun d => d.priority = p := by
  have hequal : (l.filter fun d => d.priority = p).Pairwise fun d e => mayPrecede d e := by
    refine List.pairwise_of_forall_mem_list fun d hd e he => decide_eq_true ?_
    have hpd : d.priority = p := of_decide_eq_true (List.mem_filter.1 hd).2
    have hpe : e.priority = p := of_decide_eq_true (List.mem_filter.1 he).2
    exact (hpe.trans hpd.symm).le
  have hkept : (l.filter fun d => d.priority = p).Sublist (l.mergeSort mayPrecede) :=
    List.sublist_mergeSort mayPrecede_trans mayPrecede_total hequal List.filter_sublist
  have hfiltered : (l.filter fun d => d.priority = p).Sublist
      ((l.mergeSort mayPrecede).filter fun d => d.priority = p) := by
    simpa [List.filter_filter] using hkept.filter fun d => d.priority = p
  have hlength := ((List.mergeSort_perm l mayPrecede).filter fun d => d.priority = p).length_eq
  exact (hfiltered.eq_of_length hlength.symm).symm

/-! ## Registries that reflect registrations -/

/-- Registering one more decoder keeps what a registry reflects. -/
theorem Reflects.register (h : r.Reflects ds) (d : Decoder) :
    (r.register d).Reflects (ds ++ [d]) where
  held := by
    rw [standing_concat]
    exact (List.mergeSort_perm _ _).trans ((h.held.filter _).append_right [d])
  falling := falling_mergeSort _
  steady := by
    intro p
    -- the decoders of one priority have stood in the order of registration before
    have hkept : ((r.decoders.filter fun e => e.name ≠ d.name).filter fun e => e.priority = p) =
        ((standing ds).filter fun e => e.name ≠ d.name).filter fun e => e.priority = p := by
      rw [List.filter_comm, h.steady p, List.filter_comm]
    rw [standing_concat, Registry.register, filter_mergeSort, List.filter_append,
      List.filter_append, hkept]

/-- A registry reflects its registrations. -/
theorem reflects_ofList (ds : List Decoder) : (ofList ds).Reflects ds := by
  induction ds using List.reverseRecOn with
  | nil => exact ⟨.nil, .nil, fun _ => rfl⟩
  | append_singleton ds d ih =>
      have hlast : ofList (ds ++ [d]) = (ofList ds).register d := List.foldl_append
      rw [hlast]
      exact ih.register d

namespace Reflects

theorem nodup_names (h : r.Reflects ds) : (r.decoders.map Decoder.name).Nodup :=
  (h.held.map Decoder.name).nodup_iff.2 (nodup_names_standing ds)

/-- What is found under a name is its latest registration. -/
theorem get?_eq (h : r.Reflects ds) (name : String) :
    r.get? name = ds.reverse.find? fun d => d.name = name := by
  -- no two have the name, so it does not matter in which order one looks
  have hperm : r.decoders.find? (fun d => d.name = name) =
      (standing ds).find? fun d => d.name = name := by
    refine List.find?_eq_find?_of_perm h.held ?_
    rintro d ⟨hd, hdname⟩ e ⟨he, hename⟩
    have hnames : d.name = e.name :=
      (of_decide_eq_true hdname).trans (of_decide_eq_true hename).symm
    exact List.inj_on_of_nodup_map h.nodup_names hd he hnames
  exact hperm.trans (find?_standing ds name)

/-- The decoder that is found for a document is the foremost one. -/
theorem detect?_eq_some_iff (h : r.Reflects ds) :
    r.detect? input = some d ↔ r.Foremost input d := by
  rw [detect?, List.find?_eq_some_iff_append]
  constructor
  · rintro ⟨hd, before, after, hsplit, hbefore⟩
    have hunclaimed : ∀ e ∈ before, ¬e.recognizes input := by simpa using hbefore
    have hfalling := h.falling
    rw [hsplit, List.pairwise_append, List.pairwise_cons] at hfalling
    obtain ⟨-, ⟨hlower, -⟩, -⟩ := hfalling
    refine ⟨hd, ?_, before, after, hsplit, ?_⟩
    · -- what claims the input is the decoder itself or behind it
      intro e he hclaims
      rw [hsplit, List.mem_append, List.mem_cons] at he
      rcases he with hbefore | rfl | hafter
      · exact absurd hclaims (hunclaimed e hbefore)
      · exact Nat.le_refl _
      · exact hlower e hafter
    · intro e he hclaims
      exact absurd hclaims (hunclaimed e he)
  · rintro ⟨hd, hhighest, before, after, hsplit, hfirst⟩
    have hfalling := h.falling
    rw [hsplit, List.pairwise_append] at hfalling
    obtain ⟨-, -, hhigher⟩ := hfalling
    refine ⟨hd, before, after, hsplit, ?_⟩
    intro e he
    have hle : d.priority ≤ e.priority := hhigher e he d List.mem_cons_self
    have hunclaimed : ¬e.recognizes input := by
      intro hclaims
      have hge : e.priority ≤ d.priority :=
        hhighest e (hsplit ▸ List.mem_append_left _ he) hclaims
      exact hfirst e he hclaims (Nat.le_antisymm hge hle)
    simpa using hunclaimed

end Reflects

/-- None is found if none recognizes the document. -/
theorem detect?_eq_none_iff :
    r.detect? input = none ↔ ∀ d ∈ r.decoders, ¬d.recognizes input := by
  simp [detect?]

/-- After any registrations, of decoders of any names and priorities, no two decoders have a name in
common.  The registry holds what no later registration has replaced, by falling priority, and for one
priority in the order of the registrations.  Under a name it finds the decoder that was registered
last under it; for a document it finds the decoder of the highest priority that recognizes it, the
first one of several, and none exactly if no decoder recognizes it. -/
theorem registrations_stand (ds : List Decoder) :
    ((ofList ds).decoders.map Decoder.name).Nodup ∧ (ofList ds).Reflects ds ∧
      (∀ name, (ofList ds).get? name = ds.reverse.find? fun d => d.name = name) ∧
      (∀ input d, (ofList ds).detect? input = some d ↔ (ofList ds).Foremost input d) ∧
      ∀ input, (ofList ds).detect? input = none ↔
        ∀ d ∈ (ofList ds).decoders, ¬d.recognizes input := by
  have hr : (ofList ds).Reflects ds := reflects_ofList ds
  exact ⟨hr.nodup_names, hr, hr.get?_eq, fun _ _ => hr.detect?_eq_some_iff,
    fun _ => detect?_eq_none_iff⟩

end Registry
end Recast
