import Recast.Proofs.Stream.Content

/-!
# Protocol — events in an order that makes sense

No record starts inside another one, entities and literals stand in records, every entity that ends
has started, and a record ends when none of its entities is open.  `Position.next?` says this of one
event, and events are in order as far as they lead from one position to the next.

Main statements: `after?_isSome_iff`, events that lead somewhere from between the records are the
beginning of a series of whole records; `level_iff`, events that leave the same entities open,
however many there are, are the content of a record.
-/

namespace Recast

/-- Where a stream of events stands. -/
inductive Position where
  | outside
  /-- In a record, inside this number of open entities. -/
  | inside (entities : Nat)
  deriving DecidableEq, Repr

namespace Position

/-- Where an event leads, if it may come. -/
def next? : Event → Position → Option Position
  | .startRecord _, .outside => some (.inside 0)
  | .endRecord, .inside 0 => some .outside
  | .startEntity _, .inside n => some (.inside (n + 1))
  | .endEntity, .inside (n + 1) => some (.inside n)
  | .literal _ _, .inside n => some (.inside n)
  | _, _ => none

def after? : List Event → Position → Option Position
  | [], p => some p
  | e :: rest, p => (next? e p).bind (after? rest)

/-- The events that are missing up to the end of the record at hand. -/
def closing : Position → List Event
  | .outside => []
  | .inside n => List.replicate n .endEntity ++ [.endRecord]

/-! ## Whole records -/

theorem after?_append (es fs : List Event) (p : Position) :
    after? (es ++ fs) p = (after? es p).bind (after? fs) := by
  induction es generalizing p with
  | nil => rfl
  | cons e rest ih =>
      rw [List.cons_append, after?, after?]
      cases next? e p with
      | none => rfl
      | some q => exact ih q

/-- Events that may come in a record and leave the same entities open. -/
def Level (es : List Event) : Prop :=
  ∀ n, after? es (.inside n) = some (.inside n)

theorem Level.nil : Level [] := fun _ => rfl

theorem Level.literal (name value : String) : Level [.literal name value] := fun _ => rfl

theorem Level.append {es fs : List Event} (h : Level es) (h' : Level fs) : Level (es ++ fs) := by
  intro n
  rw [after?_append, h n]
  exact h' n

/-- Level events may follow each other any number of times. -/
theorem Level.flatMap {α : Type u} {f : α → List Event} {as : List α}
    (h : ∀ a ∈ as, Level (f a)) : Level (as.flatMap f) := by
  induction as with
  | nil => exact .nil
  | cons a rest ih =>
      obtain ⟨hfirst, hrest⟩ := List.forall_mem_cons.1 h
      exact hfirst.append (ih hrest)

/-- Level events inside an entity are level with it. -/
theorem Level.entity {es : List Event} (h : Level es) (name : String) :
    Level (.startEntity name :: (es ++ [.endEntity])) := by
  intro n
  calc after? (.startEntity name :: (es ++ [.endEntity])) (.inside n)
      = after? (es ++ [.endEntity]) (.inside (n + 1)) := rfl
    _ = some (.inside n) := by
          rw [after?_append, h (n + 1)]
          rfl

/-- A record of level events may come outside of records. -/
theorem Level.record {es : List Event} (h : Level es) (id : String) :
    after? (.startRecord id :: (es ++ [.endRecord])) .outside = some .outside := by
  calc after? (.startRecord id :: (es ++ [.endRecord])) .outside
      = after? (es ++ [.endRecord]) (.inside 0) := rfl
    _ = some .outside := by
          rw [after?_append, h 0]
          rfl

/-- The events of a content are level. -/
theorem level_content (c : Content) : Level c.events := by
  induction c with
  | done => exact .nil
  | literal name value rest ih => exact (Level.literal name value).append ih
  | entity name inner rest ihInner ihRest =>
      have hevents : (Content.entity name inner rest).events =
          .startEntity name :: (inner.events ++ [.endEntity]) ++ rest.events := by
        simp [Content.events]
      rw [hevents]
      exact (ihInner.entity name).append ihRest

theorem after?_record (q : WholeRecord) : after? q.events .outside = some .outside :=
  (level_content q.content).record q.id

/-- Whole records may follow each other. -/
theorem after?_records (qs : List WholeRecord) :
    after? (qs.flatMap WholeRecord.events) .outside = some .outside := by
  induction qs with
  | nil => rfl
  | cons q rest ih =>
      rw [List.flatMap_cons, after?_append, after?_record]
      exact ih

/-- Where a beginning of events leads, if all of them lead somewhere. -/
theorem isSome_of_prefix {es fs : List Event} {p : Position} (hfront : es <+: fs)
    (h : (after? fs p).isSome = true) : (after? es p).isSome = true := by
  obtain ⟨more, rfl⟩ := hfront
  rw [after?_append] at h
  cases hes : after? es p with
  | none => simp [hes] at h
  | some q => rfl

/-! ## What is missing of records -/

/-- Events that finish the record at hand, if there is one, and go on with whole records. -/
def Finishes : Position → List Event → Prop
  | .outside, es => ∃ qs : List WholeRecord, es = qs.flatMap WholeRecord.events
  | .inside n, es => ∃ (c : Content) (outer : List Content) (qs : List WholeRecord),
      outer.length = n ∧
        es = c.events ++ (outer.flatMap fun o => .endEntity :: o.events) ++
          .endRecord :: qs.flatMap WholeRecord.events

/-- What is missing finishes the record at hand. -/
theorem finishes_closing (p : Position) : Finishes p p.closing := by
  cases p with
  | outside => exact ⟨[], rfl⟩
  | inside n =>
      have hends : ∀ k : Nat, (List.replicate k Content.done).flatMap
          (fun o => Event.endEntity :: o.events) = List.replicate k .endEntity := by
        intro k
        induction k with
        | zero => rfl
        | succ k ih => rw [List.replicate_succ, List.flatMap_cons, ih]; rfl
      refine ⟨.done, List.replicate n .done, [], List.length_replicate, ?_⟩
      rw [hends]
      rfl

/-- What finishes the record after an event finishes it together with the event. -/
theorem Finishes.cons {e : Event} {p q : Position} {es : List Event} (hnext : next? e p = some q)
    (h : Finishes q es) : Finishes p (e :: es) := by
  cases e with
  | startRecord id =>
      cases p with
      | inside n => cases hnext
      | outside =>
          obtain rfl := Option.some.inj hnext
          obtain ⟨c, outer, qs, hlength, rfl⟩ := h
          obtain rfl := List.length_eq_zero_iff.1 hlength
          refine ⟨⟨id, c⟩ :: qs, ?_⟩
          simp [WholeRecord.events]
  | endRecord =>
      rcases p with _ | _ | n
      · cases hnext
      · obtain rfl := Option.some.inj hnext
        obtain ⟨qs, rfl⟩ := h
        exact ⟨.done, [], qs, rfl, rfl⟩
      · cases hnext
  | startEntity name =>
      cases p with
      | outside => cases hnext
      | inside n =>
          obtain rfl := Option.some.inj hnext
          obtain ⟨c, outer, qs, hlength, rfl⟩ := h
          -- the content so far is that of the entity, and what follows its end stands around it
          obtain ⟨rest, more, rfl⟩ := List.exists_cons_of_length_eq_add_one hlength
          refine ⟨.entity name c rest, more, qs, Nat.succ.inj hlength, ?_⟩
          simp [Content.events]
  | endEntity =>
      rcases p with _ | _ | n
      · cases hnext
      · cases hnext
      · obtain rfl := Option.some.inj hnext
        obtain ⟨c, outer, qs, hlength, rfl⟩ := h
        refine ⟨.done, c :: outer, qs, congrArg Nat.succ hlength, ?_⟩
        simp [Content.events]
  | literal name value =>
      cases p with
      | outside => cases hnext
      | inside n =>
          obtain rfl := Option.some.inj hnext
          obtain ⟨c, outer, qs, hlength, rfl⟩ := h
          exact ⟨.literal name value c, outer, qs, hlength, rfl⟩

/-- Events that may come can be finished by what is missing behind them. -/
theorem finishes_of_after? {es : List Event} {p q : Position} (h : after? es p = some q) :
    Finishes p (es ++ q.closing) := by
  induction es generalizing p with
  | nil =>
      obtain rfl := Option.some.inj h
      exact finishes_closing p
  | cons e rest ih =>
      obtain ⟨r, hnext, hrest⟩ := Option.bind_eq_some_iff.1 h
      exact (ih hrest).cons hnext

/-- Events lead somewhere from outside all records if and only if whole records begin with them. -/
theorem after?_isSome_iff {es : List Event} :
    (after? es .outside).isSome = true ↔
      ∃ qs : List WholeRecord, es <+: qs.flatMap WholeRecord.events := by
  constructor
  · intro h
    obtain ⟨q, hq⟩ := Option.isSome_iff_exists.1 h
    obtain ⟨qs, hqs⟩ := finishes_of_after? hq
    exact ⟨qs, ⟨q.closing, hqs⟩⟩
  · rintro ⟨qs, hfront⟩
    refine isSome_of_prefix hfront ?_
    rw [after?_records]
    rfl

/-! ## Contents -/

/-- So deep inside entities, events do not lead out of the record. -/
theorem inside_of_length_le {es : List Event} {n : Nat} {p : Position}
    (h : after? es (.inside n) = some p) (hdeep : es.length ≤ n) : ∃ k, p = .inside k := by
  induction es generalizing n with
  | nil => exact ⟨n, (Option.some.inj h).symm⟩
  | cons e rest ih =>
      rcases Option.bind_eq_some_iff.1 h with ⟨q, hnext, hrest⟩
      rcases Nat.exists_eq_add_of_le' (Nat.lt_of_lt_of_le rest.length.succ_pos hdeep) with ⟨m, rfl⟩
      have hlength : rest.length ≤ m := Nat.le_of_succ_le_succ hdeep
      -- an event closes one entity at most, and there is one more than events are left
      cases e with
      | startRecord id => cases hnext
      | endRecord => cases hnext
      | startEntity name =>
          cases hnext
          exact ih hrest (by omega)
      | endEntity =>
          cases hnext
          exact ih hrest hlength
      | literal name value =>
          cases hnext
          exact ih hrest (by omega)

/-- No record starts among events that leave the same entities open. -/
theorem Level.startRecord_not_mem {es : List Event} (h : Level es) (id : String) :
    .startRecord id ∉ es := by
  intro hmem
  rcases List.append_of_mem hmem with ⟨before, behind, rfl⟩
  have hrun := h before.length
  rw [after?_append] at hrun
  rcases Option.bind_eq_some_iff.1 hrun with ⟨p, hbefore, hrest⟩
  rcases inside_of_length_le hbefore (Nat.le_refl _) with ⟨k, rfl⟩
  cases hrest

/-- Events that leave the same entities open, however many there are, are a content. -/
theorem level_iff {es : List Event} : Level es ↔ ∃ c : Content, es = c.events := by
  constructor
  · intro h
    have hfinish : Finishes (.inside 0) (es ++ [.endRecord]) := finishes_of_after? (h 0)
    rcases hfinish with ⟨c, outer, qs, hlength, hevents⟩
    cases List.length_eq_zero_iff.1 hlength
    cases qs with
    | nil => exact ⟨c, by simpa using hevents⟩
    | cons q rest =>
        -- a second record would start in front of the end of the first one
        have hmem : Event.startRecord q.id ∈ es ++ [.endRecord] := by
          simp [hevents, WholeRecord.events]
        have hin : Event.startRecord q.id ∈ es := by simpa using hmem
        exact absurd hin (h.startRecord_not_mem q.id)
  · rintro ⟨c, rfl⟩
    exact level_content c

end Position
end Recast
