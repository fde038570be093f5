import Recast.Proofs.Skip.Kept

/-!
# Trimmed — the records that come through

What skip rules leave of a record is said in two steps.  The outermost entities whose names are
listed go first, with all they hold: `Content.without`.  Of the rest those literals go whose path
matches a rule for literals: `Content.keeping`.  A record is left out as a whole if some literal
after the first step matches a rule for records, whether or not the second step removes it.

Main statement: `SkipRules.run_records`, the rules let the trimmed records through that are not left
out, and it makes no difference to them whether events are held back.
-/

namespace Recast

/-! ## Parts of a content -/

namespace Content

/-- A content without its outermost entities of some names and all that these hold. -/
def without (names : List String) : Content → Content
  | done => done
  | literal name value rest => literal name value (rest.without names)
  | entity name inner rest =>
      if name ∈ names then rest.without names
      else entity name (inner.without names) (rest.without names)

/-- A content with those literals only that are wanted, by the entities around them and their
names. -/
def keeping (wanted : List String → String → Bool) (around : List String) : Content → Content
  | done => done
  | literal name value rest =>
      if wanted around name then literal name value (rest.keeping wanted around)
      else rest.keeping wanted around
  | entity name inner rest =>
      entity name (inner.keeping wanted (around ++ [name])) (rest.keeping wanted around)

end Content

namespace SkipRules

/-! ## What the rules say of a record -/

/-- A rule for literals matches the path of a literal. -/
def Hides (r : SkipRules) (around : List String) (name : String) : Prop :=
  ∃ p ∈ r.literals, p.matches (pathOf around name) = true

/-- A rule for records matches the path and the value of a literal outside the entities that are
left out. -/
def Drops (r : SkipRules) (q : WholeRecord) : Prop :=
  ∃ l ∈ (q.content.without r.entities).literals [], ∃ rule ∈ r.records,
    rule.1.matches (pathOf l.1 l.2.1) = true ∧ rule.2.matches l.2.2 = true

instance (r : SkipRules) (around : List String) (name : String) : Decidable (r.Hides around name) :=
  inferInstanceAs (Decidable (∃ p ∈ r.literals, _))

instance (r : SkipRules) (q : WholeRecord) : Decidable (r.Drops q) :=
  inferInstanceAs (Decidable (∃ l ∈ (q.content.without r.entities).literals [], _))

/-- A record without the entities and literals that are left out. -/
def trimmed (r : SkipRules) (q : WholeRecord) : WholeRecord :=
  ⟨q.id, (q.content.without r.entities).keeping (fun around name => !decide (r.Hides around name)) []⟩

/-! ## What comes through -/

/-- A literal is left out if a rule for literals hides it. -/
theorem dropsLiteral_eq (r : SkipRules) (around : List String) (name : String) :
    r.dropsLiteral (pathOf around name) = decide (r.Hides around name) := by
  rw [Bool.eq_iff_iff, decide_eq_true_iff]
  simp [dropsLiteral, Hides]

/-- A literal condemns its record if a rule for records matches its path and its value. -/
theorem dropsRecord_iff {r : SkipRules} {path value : String} :
    r.dropsRecord path value = true ↔
      ∃ rule ∈ r.records, rule.1.matches path = true ∧ rule.2.matches value = true := by
  simp [dropsRecord]

/-- What is left of a content are the literals that are not hidden, outside the entities that are
left out. -/
theorem filtered_eq (r : SkipRules) (around : List String) (c : Content) :
    r.filtered around c =
      (c.without r.entities).keeping (fun around name => !decide (r.Hides around name)) around := by
  induction c generalizing around with
  | done => rfl
  | literal name value rest ih =>
      by_cases h : r.Hides around name <;>
        simp [filtered, Content.without, Content.keeping, dropsLiteral_eq, h, ih]
  | entity name inner rest ihInner ihRest =>
      by_cases h : name ∈ r.entities
      · simp [filtered, Content.without, h, ihRest]
      · simp [filtered, Content.without, Content.keeping, h, ihInner, ihRest]

/-- A content condemns its record if one of its literals does, outside the entities that are left
out. -/
theorem condemns_iff (r : SkipRules) (around : List String) (c : Content) :
    r.condemns around c = true ↔ ∃ l ∈ (c.without r.entities).literals around,
      r.dropsRecord (pathOf l.1 l.2.1) l.2.2 = true := by
  induction c generalizing around with
  | done => simp [condemns, Content.without, Content.literals]
  | literal name value rest ih => simp [condemns, Content.without, Content.literals, ih]
  | entity name inner rest ihInner ihRest =>
      by_cases h : name ∈ r.entities
      · simp [condemns, Content.without, h, ihRest]
      · simp [condemns, Content.without, Content.literals, h, ihInner, ihRest, or_and_right,
          exists_or]

theorem condemns_eq (r : SkipRules) (q : WholeRecord) :
    r.condemns [] q.content = decide (r.Drops q) := by
  rw [Bool.eq_iff_iff, condemns_iff, decide_eq_true_iff]
  simp only [dropsRecord_iff]
  rfl

/-- A record is kept trimmed, unless it is dropped. -/
theorem keep?_eq (r : SkipRules) (q : WholeRecord) :
    r.keep? q = if r.Drops q then Option.none else some (r.trimmed q) := by
  by_cases h : r.Drops q <;> simp [keep?, condemns_eq, h, trimmed, filtered_eq]

/-- Of many records those that are not dropped are kept, each trimmed. -/
theorem filterMap_keep? (r : SkipRules) (qs : List WholeRecord) :
    qs.filterMap r.keep? = (qs.filter fun q => ¬ r.Drops q).map r.trimmed := by
  induction qs with
  | nil => rfl
  | cons q rest ih =>
      by_cases h : r.Drops q
      · have hnone : r.keep? q = Option.none := by rw [keep?_eq, if_pos h]
        rw [List.filterMap_cons_none hnone, ih, List.filter_cons_of_neg (by simpa using h)]
      · have hsome : r.keep? q = some (r.trimmed q) := by rw [keep?_eq, if_neg h]
        rw [List.filterMap_cons_some hsome, ih, List.filter_cons_of_pos (by simpa using h),
          List.map_cons]

/-- Rules without those for records leave no record out. -/
theorem not_drops_of_nil {r : SkipRules} (h : r.records = []) (q : WholeRecord) : ¬ r.Drops q := by
  simp [Drops, h]

/-- The rules let those records through, trimmed and in order, that are not left out, and count the
others.  Held back until their end, the records come through as they do when the same rules, without
those for records, hand on each event at once. -/
theorem run_records (r : SkipRules) (qs : List WholeRecord) :
    (r.run (qs.flatMap WholeRecord.events)).refusal = Option.none ∧
      (r.run (qs.flatMap WholeRecord.events)).out =
        ((qs.filter fun q => ¬ r.Drops q).map r.trimmed).flatMap WholeRecord.events ∧
      (r.run (qs.flatMap WholeRecord.events)).state.dropped = (qs.filter fun q => r.Drops q).length ∧
      (r.run (qs.flatMap WholeRecord.events)).out =
        (run { r with records := [] }
          ((qs.filter fun q => ¬ r.Drops q).flatMap WholeRecord.events)).out := by
  obtain ⟨t, hrun, hdropped⟩ := r.each_records qs initial
  -- without rules for records the others are the same, and every record is kept
  obtain ⟨u, hstream, -⟩ := each_records { r with records := [] } (qs.filter fun q => ¬ r.Drops q)
    initial
  have hall : (qs.filter fun q => ¬ r.Drops q).filterMap (keep? { r with records := [] }) =
      (qs.filter fun q => ¬ r.Drops q).map r.trimmed := by
    rw [filterMap_keep?, List.filter_eq_self.2 fun q _ => by simp [not_drops_of_nil]]
    rfl
  have hcount : qs.countP (fun q => r.condemns [] q.content) =
      (qs.filter fun q => r.Drops q).length := by
    simp only [condemns_eq]
    exact List.countP_eq_length_filter
  unfold run
  rw [hrun, hstream, hall, filterMap_keep?]
  refine ⟨rfl, rfl, ?_, rfl⟩
  rw [hdropped, hcount]
  exact Nat.zero_add _

end SkipRules
end Recast
