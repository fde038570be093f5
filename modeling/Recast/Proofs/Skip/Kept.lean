import Recast.Proofs.Stream.Content
import Recast.Proofs.Stream.Outcome
import Recast.Skip

/-!
# Kept — what skip rules leave of a record

`SkipRules.keep?` says what becomes of a whole record: it is left out, or some of its entities and
literals are.  Main statement: `each_records`, from any state the rules let exactly the kept records
through, one after the other and whole.
-/

namespace Recast
namespace SkipRules

/-! ## What is kept -/

/-- What is left of a content inside some entities. -/
def filtered (r : SkipRules) (around : List String) : Content → Content
  | .done => .done
  | .literal name value rest =>
      if r.dropsLiteral (pathOf around name) then filtered r around rest
      else .literal name value (filtered r around rest)
  | .entity name inner rest =>
      if r.entities.contains name then filtered r around rest
      else .entity name (filtered r (around ++ [name]) inner) (filtered r around rest)

/-- Whether a content inside some entities is the reason for leaving out its record. -/
def condemns (r : SkipRules) (around : List String) : Content → Bool
  | .done => false
  | .literal name value rest =>
      r.dropsRecord (pathOf around name) value || condemns r around rest
  | .entity name inner rest =>
      (!r.entities.contains name && condemns r (around ++ [name]) inner) || condemns r around rest

/-- What is left of a record, unless it is left out. -/
def keep? (r : SkipRules) (q : WholeRecord) : Option WholeRecord :=
  if r.condemns [] q.content then Option.none else some ⟨q.id, r.filtered [] q.content⟩

/-- Without rules for records no record is condemned. -/
theorem condemns_eq_false {r : SkipRules} (h : r.holdsBack = false) (around : List String)
    (c : Content) : r.condemns around c = false := by
  have hr : r.records = [] := by simpa [holdsBack] using h
  induction c generalizing around with
  | done => rfl
  | literal name value rest ih => simp [condemns, dropsRecord, hr, ih]
  | entity name inner rest ihInner ihRest => simp [condemns, ihInner, ihRest]

/-! ## The content of a record -/

/-- Inside an entity that is left out nothing happens. -/
theorem each_events_of_depth (r : SkipRules) (c : Content) (s : State) (h : 0 < s.depth) :
    Outcome.each r.step c.events s = .quiet s := by
  induction c generalizing s with
  | done => rfl
  | literal name value rest ih =>
      have hstep : r.step (.literal name value) s = .quiet s := by simp [step, h]
      rw [Content.events, Outcome.each_cons, hstep, Outcome.quiet_andThen, ih s h]
  | entity name inner rest ihInner ihRest =>
      -- an inner entity goes one level down and comes back to the same depth
      have hstart : r.step (.startEntity name) s = .quiet { s with depth := s.depth + 1 } := by
        simp [step, h]
      have hstop : r.step .endEntity { s with depth := s.depth + 1 } = .quiet s := by
        simp [step]
      calc Outcome.each r.step (Content.entity name inner rest).events s
          = Outcome.each r.step (inner.events ++ .endEntity :: rest.events)
              { s with depth := s.depth + 1 } := by
            rw [Content.events, Outcome.each_cons, hstart, Outcome.quiet_andThen]
        _ = Outcome.each r.step (.endEntity :: rest.events) { s with depth := s.depth + 1 } := by
            rw [Outcome.each_append, ihInner _ (Nat.succ_pos _), Outcome.quiet_andThen]
        _ = Outcome.each r.step rest.events s := by
            rw [Outcome.each_cons, hstop, Outcome.quiet_andThen]
        _ = .quiet s := ihRest s h

/-- The outcome of handing on or holding back some events and going on inside some entities. -/
def passed (r : SkipRules) (s : State) (path : List String) (es : List Event) (dropping : Bool) :
    Outcome State :=
  ⟨{ s with
      path := path
      held := s.held ++ (if r.holdsBack then es else [])
      dropping := s.dropping || dropping },
    if r.holdsBack then [] else es, Option.none⟩

theorem forward_eq (r : SkipRules) (e : Event) (s : State) :
    r.forward e s = r.passed s s.path [e] false := by
  cases h : r.holdsBack <;> simp [forward, passed, h, Outcome.quiet, Outcome.hand]

theorem passed_nil (r : SkipRules) (s : State) : r.passed s s.path [] false = .quiet s := by
  cases h : r.holdsBack <;> simp [passed, h, Outcome.quiet]

/-- Handing on some events and then others hands on all of them. -/
theorem passed_andThen {r : SkipRules} {s : State} {p q : List String} {es fs : List Event}
    {d d' : Bool} {f : State → Outcome State}
    (hf : f (r.passed s p es d).state = r.passed (r.passed s p es d).state q fs d') :
    (r.passed s p es d).andThen f = r.passed s q (es ++ fs) (d || d') := by
  have hnone : (r.passed s p es d).refusal = Option.none := rfl
  rw [Outcome.andThen_of_none hnone, hf]
  cases h : r.holdsBack <;> simp [passed, h, Bool.or_assoc]

/-- Outside all entities that are left out, the filtered content comes through. -/
theorem each_events (r : SkipRules) (c : Content) (s : State) (h : s.depth = 0) :
    Outcome.each r.step c.events s =
      r.passed s s.path (r.filtered s.path c).events (r.condemns s.path c) := by
  induction c generalizing s with
  | done => exact (passed_nil r s).symm
  | literal name value rest ih =>
      have hstep : r.step (.literal name value) s =
          r.passed s s.path
            (if r.dropsLiteral (pathOf s.path name) then [] else [.literal name value])
            (r.dropsRecord (pathOf s.path name) value) := by
        cases hl : r.dropsLiteral (pathOf s.path name) <;> cases hb : r.holdsBack <;>
          simp [step, h, hl, hb, forward, passed, Outcome.quiet, Outcome.hand]
      rw [Content.events, Outcome.each_cons, hstep, passed_andThen (ih _ h)]
      cases hl : r.dropsLiteral (pathOf s.path name) <;>
        simp [filtered, condemns, hl, passed, Content.events]
  | entity name inner rest ihInner ihRest =>
      rw [Content.events, Outcome.each_cons]
      by_cases hn : r.entities.contains name = true
      · -- the entity and all that it holds is left out
        have hstart : r.step (.startEntity name) s = .quiet { s with depth := s.depth + 1 } := by
          simp only [step, hn, Bool.or_true, if_true]
        have hstop : r.step .endEntity { s with depth := s.depth + 1 } = .quiet s := by
          simp [step]
        have hinside : Outcome.each r.step inner.events { s with depth := s.depth + 1 } =
            .quiet { s with depth := s.depth + 1 } :=
          each_events_of_depth r inner _ (Nat.succ_pos _)
        calc (r.step (.startEntity name) s).andThen
              (Outcome.each r.step (inner.events ++ .endEntity :: rest.events))
            = Outcome.each r.step (.endEntity :: rest.events) { s with depth := s.depth + 1 } := by
              rw [hstart, Outcome.quiet_andThen, Outcome.each_append, hinside,
                Outcome.quiet_andThen]
          _ = Outcome.each r.step rest.events s := by
              rw [Outcome.each_cons, hstop, Outcome.quiet_andThen]
          _ = r.passed s s.path (r.filtered s.path rest).events (r.condemns s.path rest) :=
              ihRest s h
          _ = _ := by
              simp only [filtered, condemns, hn, if_true, Bool.not_true, Bool.false_and,
                Bool.false_or]
      · have hstart : r.step (.startEntity name) s =
            r.passed s (s.path ++ [name]) [.startEntity name] false := by
          have hkeep : ¬ (decide (0 < s.depth) || r.entities.contains name) = true := by
            simpa [h] using hn
          simp only [step, hkeep]
          exact forward_eq r _ _
        have hstop : ∀ t : State, t.depth = 0 →
            r.step .endEntity t = r.passed t t.path.dropLast [.endEntity] false := by
          intro t ht
          have hopen : ¬ 0 < t.depth := by simp [ht]
          simp only [step, hopen, if_false]
          exact forward_eq r _ _
        have hrest : ∀ t : State, t.depth = 0 →
            Outcome.each r.step (.endEntity :: rest.events) t =
              r.passed t t.path.dropLast
                (.endEntity :: (r.filtered t.path.dropLast rest).events)
                (r.condemns t.path.dropLast rest) := by
          intro t ht
          rw [Outcome.each_cons, hstop t ht, passed_andThen (ihRest _ ht)]
          rfl
        have hinside : ∀ t : State, t.depth = 0 →
            Outcome.each r.step (inner.events ++ .endEntity :: rest.events) t =
              r.passed t t.path.dropLast
                ((r.filtered t.path inner).events ++
                  .endEntity :: (r.filtered t.path.dropLast rest).events)
                (r.condemns t.path inner || r.condemns t.path.dropLast rest) := by
          intro t ht
          rw [Outcome.each_append, ihInner t ht, passed_andThen (hrest _ ht)]
          rfl
        rw [hstart, passed_andThen (hinside _ h)]
        simp only [filtered, condemns, hn, passed, Content.events, List.dropLast_concat,
          Bool.false_or, Bool.not_false, Bool.true_and, List.singleton_append, if_false,
          Bool.false_eq_true]

/-! ## Whole records -/

/-- From any state a record goes through as the rules keep it, or is counted as left out. -/
theorem each_record (r : SkipRules) (q : WholeRecord) (s : State) :
    ∃ t : State,
      Outcome.each r.step q.events s =
          ⟨t, (r.keep? q).toList.flatMap WholeRecord.events, Option.none⟩ ∧
        t.dropped = s.dropped + if r.condemns [] q.content then 1 else 0 := by
  -- whatever came before, the record starts from here
  let begun : State := ⟨[], 0, [], false, s.dropped⟩
  have hstart : r.step (.startRecord q.id) s = r.passed begun [] [.startRecord q.id] false :=
    forward_eq r _ begun
  have hbody : Outcome.each r.step (.startRecord q.id :: q.content.events) s =
      r.passed begun [] (.startRecord q.id :: (r.filtered [] q.content).events)
        (r.condemns [] q.content) := by
    rw [Outcome.each_cons, hstart]
    exact passed_andThen (each_events r q.content _ rfl)
  have hsplit : q.events = (.startRecord q.id :: q.content.events) ++ [.endRecord] := rfl
  rw [hsplit, Outcome.each_append, hbody, Outcome.andThen_of_none rfl, Outcome.each_singleton]
  cases hb : r.holdsBack with
  | false =>
      have hc : r.condemns [] q.content = false := condemns_eq_false hb [] q.content
      simp [step, passed, hb, hc, keep?, Outcome.hand, WholeRecord.events, begun]
  | true =>
      cases hc : r.condemns [] q.content with
      | true => simp [step, passed, hb, keep?, hc, Outcome.quiet, begun]
      | false => simp [step, passed, hb, keep?, hc, WholeRecord.events, begun]

/-- From any state exactly the kept records come through, whole and in order. -/
theorem each_records (r : SkipRules) (qs : List WholeRecord) (s : State) :
    ∃ t : State,
      Outcome.each r.step (qs.flatMap WholeRecord.events) s =
          ⟨t, (qs.filterMap r.keep?).flatMap WholeRecord.events, Option.none⟩ ∧
        t.dropped = s.dropped + qs.countP (fun q => r.condemns [] q.content) := by
  induction qs generalizing s with
  | nil => exact ⟨s, rfl, rfl⟩
  | cons q rest ih =>
      obtain ⟨t, ht, hdropped⟩ := each_record r q s
      obtain ⟨u, hu, hmore⟩ := ih t
      refine ⟨u, ?_, ?_⟩
      · -- what the record leaves is handed on in front of what the others leave
        have hkept : ((q :: rest).filterMap r.keep?).flatMap WholeRecord.events =
            (r.keep? q).toList.flatMap WholeRecord.events ++
              (rest.filterMap r.keep?).flatMap WholeRecord.events := by
          cases hk : r.keep? q <;> simp [hk]
        calc Outcome.each r.step ((q :: rest).flatMap WholeRecord.events) s
            = (Outcome.each r.step q.events s).andThen
                (Outcome.each r.step (rest.flatMap WholeRecord.events)) := by
              rw [List.flatMap_cons, Outcome.each_append]
          _ = ⟨u, (r.keep? q).toList.flatMap WholeRecord.events ++
                (rest.filterMap r.keep?).flatMap WholeRecord.events, Option.none⟩ := by
              rw [ht, Outcome.andThen_of_none rfl, hu]
          _ = ⟨u, ((q :: rest).filterMap r.keep?).flatMap WholeRecord.events, Option.none⟩ := by
              rw [hkept]
      · rw [hmore, hdropped, List.countP_cons]
        omega

end SkipRules
end Recast
