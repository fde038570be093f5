import Recast.Graph.Encoder
import Recast.Proofs.Graph.Merge
import Recast.Proofs.Stream.Outcome

/-!
# Encoding — records on top of a model

What has been encoded before a record decides nothing about it: the record is encoded on top of a
model as it is encoded alone, and the two models are merged.  `Encoder.Above m` relates a state on
top of `m` to a state alone; `Encoder.step_alike` says that every event keeps them related.
-/

namespace Recast
namespace Encoder

/-- The first state is the second one on top of a model. -/
structure Above (m : Model) (s t : State) : Prop where
  record : s.record = t.record
  model : s.model = m.merge t.model

variable {m : Model} {s t : State}

/-! ## Statements -/

/-- Adding a statement does the same on top of a model. -/
theorem add_alike (record subject predicate : String) (object : Node) (h : Above m s t) :
    Outcome.Alike (Above m) (add record subject predicate object s)
      (add record subject predicate object t) := by
  unfold add
  cases Statement.make? subject predicate object with
  | error part => exact .refuse h _
  | ok st =>
      refine .quiet ⟨h.record, ?_⟩
      rw [h.model, Model.merge_addStatement]

/-- Stating a class does the same on top of a model. -/
theorem addClass_alike (record : String) (node : Scope) (uri : String) (h : Above m s t) :
    Outcome.Alike (Above m) (addClass record node uri s) (addClass record node uri t) := by
  refine (add_alike record node.uri Name.typePredicate (.resource uri) h).andThen fun s t h => ?_
  refine .quiet ⟨h.record, ?_⟩
  have hnamed := Model.merge_nameClass m (t.model.addPath (node.path.child Name.typePredicate)) uri
  rw [Model.merge_addPath, ← h.model] at hnamed
  exact hnamed.symm

/-- The same scope, and a state on top of a model. -/
def AboveIn (m : Model) (x y : Scope × State) : Prop :=
  x.1 = y.1 ∧ Above m x.2 y.2

/-- Going to a shared entity does the same on top of a model. -/
theorem share_alike (d : DataModel) (name : String) {x y : Scope × State} (h : AboveIn m x y) :
    Outcome.Alike (AboveIn m) (share d name x) (share d name y) := by
  obtain ⟨parent, s⟩ := x
  obtain ⟨parent', t⟩ := y
  obtain ⟨hscope, habove⟩ := h
  simp only at hscope habove
  subst hscope
  simp only [share, habove.record]
  cases hr : t.record with
  | none => exact .refuse ⟨rfl, habove⟩ _
  | some r =>
      simp only
      cases hk : Assoc.get? (childKey parent.key name) r.shared with
      | some uri => exact .quiet ⟨rfl, habove⟩
      | none =>
          -- whatever node is made, it is linked in both states
          have hmade : ∀ (uri : String) (made : Record), Outcome.Alike (Above m)
              (add r.uri parent.uri (predicate d name) (.resource uri)
                { s with record := some made })
              (add r.uri parent.uri (predicate d name) (.resource uri)
                { t with record := some made }) :=
            fun uri made => add_alike _ _ _ _ ⟨rfl, habove.model⟩
          exact ⟨(hmade _ _).out, (hmade _ _).refusal, rfl, (hmade _ _).state⟩

/-- Adding a value does the same on top of a model. -/
theorem addValue_alike (d : DataModel) (record attribute_ value : String) {x y : Scope × State}
    (h : AboveIn m x y) :
    Outcome.Alike (AboveIn m) (addValue d record attribute_ value x)
      (addValue d record attribute_ value y) := by
  obtain ⟨scope, s⟩ := x
  obtain ⟨scope', t⟩ := y
  obtain ⟨hscope, habove⟩ := h
  simp only at hscope habove
  subst hscope
  -- the statement is added alike, and so is the path
  have hadded := (add_alike record scope.uri (predicate d attribute_) (.literal value)
    habove).andThen (f := fun s => .quiet { s with
      model := s.model.addPath (scope.path.child (predicate d attribute_)) })
    (g := fun s => .quiet { s with
      model := s.model.addPath (scope.path.child (predicate d attribute_)) }) fun s t h => by
    refine .quiet ⟨h.record, ?_⟩
    rw [h.model, Model.merge_addPath]
  exact ⟨hadded.out, hadded.refusal, rfl, hadded.state⟩

/-! ## Events -/

theorem startRecord_alike (d : DataModel) (id : String) (h : Above m s t) :
    Outcome.Alike (Above m) (startRecord d id s) (startRecord d id t) := by
  unfold startRecord
  rw [h.record]
  by_cases hr : t.record.isSome = true
  · rw [if_pos hr, if_pos hr]
    exact .refuse h _
  · rw [if_neg hr, if_neg hr]
    -- the record is opened above the same model
    have hbegun : ∀ j k : Nat,
        Above m ⟨s.model.addRecord (Name.mint d.recordBase id),
            some (.start (Name.mint d.recordBase id)), j⟩
          ⟨t.model.addRecord (Name.mint d.recordBase id),
            some (.start (Name.mint d.recordBase id)), k⟩ := by
      intro j k
      refine ⟨rfl, ?_⟩
      simp only [h.model, Model.merge_addRecord]
    cases d.recordClass with
    | none => exact .quiet (hbegun _ _)
    | some c => exact addClass_alike _ _ c (hbegun _ _)

theorem endRecord_alike (h : Above m s t) :
    Outcome.Alike (Above m) (endRecord s) (endRecord t) := by
  unfold endRecord
  rw [h.record]
  cases t.record with
  | none => exact .refuse h _
  | some r =>
      have hended : Above m { s with record := none } { t with record := none } := ⟨rfl, h.model⟩
      simp only
      by_cases hr : r.entities.isEmpty = true
      · rw [if_pos hr, if_pos hr]
        exact .quiet hended
      · rw [if_neg hr, if_neg hr]
        exact .refuse hended _

theorem startEntity_alike (d : DataModel) (name : String) (h : Above m s t) :
    Outcome.Alike (Above m) (startEntity d name s) (startEntity d name t) := by
  unfold startEntity
  rw [h.record]
  cases t.record with
  | none => exact .refuse h _
  | some r => exact add_alike _ _ _ _ ⟨rfl, h.model⟩

theorem endEntity_alike (h : Above m s t) :
    Outcome.Alike (Above m) (endEntity s) (endEntity t) := by
  unfold endEntity
  rw [h.record]
  cases t.record with
  | none => exact .refuse h _
  | some r =>
      cases hr : r.entities with
      | nil =>
          simp only [hr]
          exact .refuse h _
      | cons inner outer =>
          simp only [hr]
          exact .quiet ⟨rfl, h.model⟩

/-- A literal does the same on top of a model. -/
theorem literal_alike (d : DataModel) (name value : String) (h : Above m s t) :
    Outcome.Alike (Above m) (literal d name value s) (literal d name value t) := by
  unfold literal
  rw [h.record]
  cases t.record with
  | none => exact .refuse h _
  | some r =>
      simp only
      by_cases hvalue : value = ""
      · rw [if_pos hvalue, if_pos hvalue]
        exact .quiet h
      -- from here on the two take the same branch
      rw [if_neg hvalue, if_neg hvalue]
      by_cases htype : (Name.isType name && Name.isAbsolute value) = true
      · rw [if_pos htype, if_pos htype]
        exact addClass_alike _ _ _ h
      rw [if_neg htype, if_neg htype]
      -- whatever way the name gives, both walk along it
      generalize (if Name.isAbsolute name then [name] else segments name) = route
      cases route.getLast? with
      | none => exact .refuse h _
      | some attribute_ =>
          have hreached := (Outcome.Alike.each (fun name _ _ hx => share_alike d name hx)
            route.dropLast (s := (r.current, s)) (t := (r.current, t)) ⟨rfl, h⟩).andThen
            fun _ _ hx => addValue_alike d r.uri attribute_ value hx
          exact ⟨hreached.out, hreached.refusal, hreached.state.2⟩

/-- Every event does the same on top of a model. -/
theorem step_alike (d : DataModel) (e : Event) (h : Above m s t) :
    Outcome.Alike (Above m) (step d e s) (step d e t) := by
  cases e with
  | startRecord id => exact startRecord_alike d id h
  | endRecord => exact endRecord_alike h
  | startEntity name => exact startEntity_alike d name h
  | endEntity => exact endEntity_alike h
  | literal name value => exact literal_alike d name value h

/-! ## Runs -/

theorem record_endRecord (s : State) : (endRecord s).state.record = none := by
  unfold endRecord
  cases hr : s.record with
  | none => exact hr
  | some r =>
      simp only
      split <;> rfl

end Encoder
end Recast
