import Recast.Proofs.Graph.Walk

/-!
# Move — what can happen to a record

Inside a record every event that is not refused comes down to a few moves: nodes are made and linked,
classes and values are stated, entities are left.  What a move can do is said once, in `Encoder.Move`,
and `Encoder.step_trail` says that the effects of events are sequences of moves.

* `Encoder.Reached` — the nodes of a record that events can be about;
* `Encoder.Move`, `Encoder.Trail` — moves, and moves one after the other.
-/

namespace Recast
namespace Encoder

/-! ## Moves -/

/-- The nodes of a record that events can be about: the current one, and shared ones inside these. -/
inductive Reached (d : DataModel) (names : List String) (r : Record) : Scope → Prop
  | current : Reached d names r r.current
  | shared {parent : Scope} {name uri : String} (hparent : Reached d names r parent)
      (hname : name ∈ names) (huri : Assoc.get? (childKey parent.key name) r.shared = some uri) :
      Reached d names r (entityIn d parent name uri)

/-- What can happen to a record and a model: the nodes that are made, the record and the model
afterwards. -/
inductive Move (d : DataModel) (names classes : List String) :
    Record → Model → List Made → Record → Model → Prop
  | enter {r : Record} {m : Model} {name : String} {st : Statement} (hname : name ∈ names)
      (link : (madeIn r r.current name false).Links d st) :
      Move d names classes r m [madeIn r r.current name false] (r.enter d name)
        (m.addStatement r.uri st)
  | share {r : Record} {m : Model} {parent : Scope} {name : String} {st : Statement}
      (hparent : Reached d names r parent) (hname : name ∈ names)
      (hnew : Assoc.get? (childKey parent.key name) r.shared = none)
      (link : (madeIn r parent name true).Links d st) :
      Move d names classes r m [madeIn r parent name true] (r.share parent name)
        (m.addStatement r.uri st)
  | classify {r : Record} {m : Model} {c : String} {st : Statement} (hclass : c ∈ classes)
      (hsubject : st.subject = r.current.uri) (hpredicate : st.predicate = Name.typePredicate)
      (hobject : st.object = .resource c) :
      Move d names classes r m [] r (((m.addStatement r.uri st).addPath
        (r.current.path.child Name.typePredicate)).nameClass c)
  | value {r : Record} {m : Model} {node : Scope} {st : Statement} {v : String}
      (hnode : Reached d names r node) (hsubject : st.subject = node.uri)
      (hobject : st.object = .literal v) :
      Move d names classes r m [] r
        ((m.addStatement r.uri st).addPath (node.path.child st.predicate))
  | leave {r : Record} {m : Model} {inner : Scope} {outer : List Scope}
      (hentities : r.entities = inner :: outer) :
      Move d names classes r m [] { r with entities := outer } m

inductive Trail (d : DataModel) (names classes : List String) :
    Record → Model → List Made → Record → Model → Prop
  | stay {r : Record} {m : Model} : Trail d names classes r m [] r m
  | move {r r' r'' : Record} {m m' m'' : Model} {l l' : List Made}
      (first : Move d names classes r m l r' m') (rest : Trail d names classes r' m' l' r'' m'') :
      Trail d names classes r m (l ++ l') r'' m''

section Trail

variable {d : DataModel} {names classes : List String} {r r' r'' : Record} {m m' m'' : Model}
  {l l' : List Made}

theorem Move.trail (h : Move d names classes r m l r' m') : Trail d names classes r m l r' m' := by
  have htrail := Trail.move h .stay
  rwa [List.append_nil] at htrail

theorem Trail.append (h : Trail d names classes r m l r' m')
    (h' : Trail d names classes r' m' l' r'' m'') :
    Trail d names classes r m (l ++ l') r'' m'' := by
  induction h with
  | stay => exact h'
  | move first _ ih =>
      rw [List.append_assoc]
      exact .move first (ih h')

theorem Move.uri (h : Move d names classes r m l r' m') : r'.uri = r.uri := by
  cases h <;> rfl

theorem Trail.uri (h : Trail d names classes r m l r' m') : r'.uri = r.uri := by
  induction h with
  | stay => rfl
  | move first _ ih => exact ih.trans first.uri

end Trail

/-! ## What events do, in moves -/

section Step

variable {d : DataModel} {names classes : List String} {r : Record} {s : State}

/-- Moves after which some more keys are shared. -/
structure Advance (d : DataModel) (names classes : List String) (r : Record) (m : Model)
    (made : List Made) (keys : List String) (r' : Record) (m' : Model) : Prop where
  trail : Trail d names classes r m made r' m'
  shared : ∀ k, k ∈ Assoc.keys r'.shared ↔ k ∈ Assoc.keys r.shared ∨ k ∈ keys

theorem Advance.append {r r' r'' : Record} {m m' m'' : Model} {l l' : List Made}
    {keys keys' : List String} (h : Advance d names classes r m l keys r' m')
    (h' : Advance d names classes r' m' l' keys' r'' m'') :
    Advance d names classes r m (l ++ l') (keys ++ keys') r'' m'' := by
  refine ⟨h.trail.append h'.trail, ?_⟩
  intro k
  rw [h'.shared, h.shared, List.mem_append, or_assoc]

theorem Advance.of_trail {r r' : Record} {m m' : Model} {l : List Made}
    (h : Trail d names classes r m l r' m') (hshared : r'.shared = r.shared) :
    Advance d names classes r m l [] r' m' :=
  ⟨h, fun k => by simp [hshared]⟩

theorem mem_keys_of_get? {k uri : String} {shared : List (String × String)}
    (h : Assoc.get? k shared = some uri) : k ∈ Assoc.keys shared := by
  refine Decidable.byContradiction fun hnot => ?_
  rw [Assoc.get?_eq_none_iff.2 hnot] at h
  cases h

/-- What has been reached is reached still when another entity is shared. -/
theorem Reached.share {parent node : Scope} {name : String}
    (hnew : Assoc.get? (childKey parent.key name) r.shared = none) (h : Reached d names r node) :
    Reached d names (r.share parent name) node := by
  induction h with
  | current => exact .current
  | @shared inner other uri _ hother huri ih =>
      refine .shared ih hother ?_
      have hne : childKey parent.key name ≠ childKey inner.key other := by
        intro heq
        rw [← heq, hnew] at huri
        cases huri
      exact (Assoc.get?_put _ _ _ _).trans ((if_neg hne).trans huri)

/-- A walk from a node that is reached makes its nodes in moves. -/
theorem Walk.advance (classes : List String) {r' : Record} {m m' : Model} {l : List Made}
    {ns : List String} {node last : Scope} (h : Walk d r m node ns l r' m' last)
    (hreached : Reached d names r node) (hns : ns ⊆ names) :
    Reached d names r' last ∧ Advance d names classes r m l (keysFrom node.key ns) r' m' := by
  -- by induction on the walk: each name leads to a node that is there, or to one that is made
  induction h with
  | stay => exact ⟨hreached, .of_trail .stay rfl⟩
  | @find r r' m m' node last name uri rest l huri _ ih =>
      obtain ⟨hname, hmore⟩ := List.cons_subset.1 hns
      obtain ⟨hlast, hadvance⟩ := ih (.shared hreached hname huri) hmore
      refine ⟨hlast, hadvance.trail, fun k => ?_⟩
      -- the key is among those that are shared
      have hkey := mem_keys_of_get? huri
      rw [hadvance.shared, keysFrom, List.mem_cons]
      constructor
      · rintro (hk | hk)
        · exact .inl hk
        · exact .inr (.inr hk)
      · rintro (hk | rfl | hk)
        · exact .inl hk
        · exact .inl hkey
        · exact .inr hk
  | @make r r' m m' node last name rest l st hnew link _ ih =>
      obtain ⟨hname, hmore⟩ := List.cons_subset.1 hns
      have hmove : Advance d names classes r m [madeIn r node name true] [childKey node.key name]
          (r.share node name) (m.addStatement r.uri st) := by
        refine ⟨(Move.share hreached hname hnew link).trail, fun k => ?_⟩
        have hkeys : Assoc.keys (r.share node name).shared =
            Assoc.keys r.shared ++ [childKey node.key name] :=
          (Assoc.keys_put _ _ _).trans (if_neg (Assoc.get?_eq_none_iff.1 hnew))
        rw [hkeys, List.mem_append]
      have hthere : Assoc.get? (childKey node.key name) (r.share node name).shared =
          some (madeIn r node name true).uri :=
        (Assoc.get?_put _ _ _ _).trans (if_pos rfl)
      obtain ⟨hlast, hadvance⟩ := ih (.shared (hreached.share hnew) hname hthere) hmore
      exact ⟨hlast, hmove.append hadvance⟩

/-- The effect of an event is a sequence of moves. -/
theorem Effect.advance {e : Event} {r' : Record} {m m' : Model} {l : List Made}
    (hr : s.record = some r) (hnames : entityNames e ⊆ names) (hclasses : classesAt d e ⊆ classes)
    (h : Effect d e r m l r' m') : Advance d names classes r m l (stepKeys e s) r' m' := by
  cases h with
  | enter link => exact .of_trail (Move.enter (hnames List.mem_cons_self) link).trail rfl
  | leave hentities => exact .of_trail (Move.leave hentities).trail rfl
  | silent =>
      simp only [stepKeys, hr]
      exact .of_trail .stay rfl
  | @classify _ _ name c st hc htype hsubject hpredicate hobject =>
      have hnone : stepKeys (.literal name c) s = [] := by
        simp only [stepKeys, hr, through, if_neg hc, if_pos htype, keysFrom]
      rw [classesAt, if_pos htype] at hclasses
      rw [hnone]
      exact .of_trail (Move.classify (hclasses List.mem_cons_self) hsubject hpredicate
        hobject).trail rfl
  | @value _ r' _ m' name v _ l last st hv htype _ walk hsubject _ hobject =>
      have hthrough := through_of_value hv htype
      simp only [stepKeys, hr, hthrough]
      rw [entityNames, hthrough] at hnames
      obtain ⟨hlast, hadvance⟩ := walk.advance classes .current hnames
      -- sharing entities does not change the record's URI
      rw [← walk.uri]
      have hvalued : Advance d names classes r' m' [] [] r'
          ((m'.addStatement r'.uri st).addPath (last.path.child st.predicate)) :=
        .of_trail (Move.value hlast hsubject hobject).trail rfl
      have hboth := hadvance.append hvalued
      rwa [List.append_nil, List.append_nil] at hboth

/-- An event inside a record is a sequence of moves. -/
theorem step_trail {e : Event} (hr : s.record = some r) (hopen : e ≠ .endRecord)
    (hnames : entityNames e ⊆ names) (hclasses : classesAt d e ⊆ classes)
    (h : (step d e s).refusal = none) :
    ∃ r', (step d e s).state.record = some r' ∧
      Advance d names classes r s.model (stepMade d e s) (stepKeys e s) r'
        (step d e s).state.model := by
  obtain ⟨r', hr', heffect⟩ := step_effect hr hopen h
  exact ⟨r', hr', heffect.advance hr hnames hclasses⟩

/-- Events inside a record are a sequence of moves. -/
theorem each_trail {es : List Event} (hr : s.record = some r) (hopen : .endRecord ∉ es)
    (hnames : ∀ e ∈ es, entityNames e ⊆ names) (hclasses : ∀ e ∈ es, classesAt d e ⊆ classes)
    (h : (Outcome.each (step d) es s).refusal = none) :
    ∃ r', (Outcome.each (step d) es s).state.record = some r' ∧
      Advance d names classes r s.model (made d es s) (sharedKeys d es s) r'
        (Outcome.each (step d) es s).state.model := by
  induction es generalizing s r with
  | nil => exact ⟨r, hr, .of_trail .stay rfl⟩
  | cons e rest ih =>
      obtain ⟨hfirst, hrest⟩ := Outcome.refusal_each_cons.1 h
      obtain ⟨he, hmore⟩ : .endRecord ≠ e ∧ .endRecord ∉ rest := by simpa using hopen
      obtain ⟨hname, hothers⟩ := List.forall_mem_cons.1 hnames
      obtain ⟨hclass, hlater⟩ := List.forall_mem_cons.1 hclasses
      obtain ⟨r', hr', hstep⟩ := step_trail hr (Ne.symm he) hname hclass hfirst
      obtain ⟨r'', hr'', hadvance⟩ := ih hr' hmore hothers hlater hrest
      rw [Outcome.state_each_cons hfirst, made, sharedKeys, Outcome.trace_cons hfirst,
        Outcome.trace_cons hfirst]
      exact ⟨r'', hr'', hstep.append hadvance⟩

/-- The start of a record is a move at most, in a record without anything in it. -/
theorem startRecord_trail (names : List String) {id : String}
    (hclasses : d.recordClass.toList ⊆ classes)
    (h : (startRecord d id s).refusal = none) :
    s.record = none ∧ (startRecord d id s).state.record = some (.start (Name.mint d.recordBase id)) ∧
      Trail d names classes (.start (Name.mint d.recordBase id))
        (s.model.addRecord (Name.mint d.recordBase id)) []
        (.start (Name.mint d.recordBase id)) (startRecord d id s).state.model := by
  obtain ⟨hnone, hstarted, ⟨hclass, hmodel⟩ | ⟨c, st, hclass, hsubject, hpredicate, hobject, hmodel⟩⟩ :=
    startRecord_ok h
  · rw [hmodel]
    exact ⟨hnone, hstarted, .stay⟩
  · rw [hclass] at hclasses
    rw [hmodel]
    exact ⟨hnone, hstarted, (Move.classify (r := .start (Name.mint d.recordBase id))
      (hclasses List.mem_cons_self) hsubject hpredicate hobject).trail⟩

end Step

end Encoder
end Recast
