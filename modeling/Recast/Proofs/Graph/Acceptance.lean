import Recast.Proofs.Graph.Move
import Recast.Proofs.Stream.Protocol

/-!
# Acceptance — the events that the encoder takes

The encoder asks little of events beyond their order.  An event that may not come where it comes is
refused; any other one is refused only for an empty part of a statement, or for a literal whose name
has nothing in it but dots (`step_refusal`).  With a data model that makes no empty parts, the
encoder accepts exactly the beginnings of series of whole records: `run_accepted_iff`.
-/

namespace Recast

/-- A data model with which no part of a statement is empty. -/
structure DataModel.Usable (d : DataModel) : Prop where
  recordBase : d.recordBase ≠ ""
  schemaBase : d.schemaBase ≠ ""
  recordClass : d.recordClass ≠ some ""

namespace Encoder

/-- Where the events so far have led. -/
def State.position (s : State) : Position :=
  match s.record with
  | none => .outside
  | some r => .inside r.entities.length

section Steps

variable {d : DataModel} {s : State} {r : Record}

theorem position_of_some (hr : s.record = some r) : s.position = .inside r.entities.length := by
  rw [State.position, hr]

theorem position_of_none (hr : s.record = none) : s.position = .outside := by
  rw [State.position, hr]

/-! ## Where events lead -/

theorem record_add (record subject predicate : String) (object : Node) (s : State) :
    (add record subject predicate object s).state.record = s.record := by
  unfold add
  split <;> rfl

/-- A literal that leads to an entity shared before goes on from its node. -/
theorem share_found {name uri : String} {parent : Scope} (hr : s.record = some r)
    (h : Assoc.get? (childKey parent.key name) r.shared = some uri) :
    share d name (parent, s) = .quiet (entityIn d parent name uri, s) := by
  simp only [share, hr, h]

def linkShared (d : DataModel) (r : Record) (parent : Scope) (name : String) (s : State) :
    Outcome State :=
  add r.uri parent.uri (predicate d name) (.resource (madeIn r parent name true).uri)
    { s with record := some (r.share parent name) }

/-- A literal that leads to an entity for the first time makes a node for it. -/
theorem share_new {name : String} {parent : Scope} (hr : s.record = some r)
    (h : Assoc.get? (childKey parent.key name) r.shared = none) :
    share d name (parent, s) =
      ⟨(entityIn d parent name (madeIn r parent name true).uri, (linkShared d r parent name s).state),
        (linkShared d r parent name s).out, (linkShared d r parent name s).refusal⟩ := by
  simp only [share, hr, h]
  rfl

/-- An open record stays open on the way through shared entities. -/
theorem record_share (d : DataModel) (name : String) {x : Scope × State}
    (hr : ∃ r, x.2.record = some r) : ∃ r, (share d name x).state.2.record = some r := by
  obtain ⟨parent, s⟩ := x
  obtain ⟨r, hr⟩ := hr
  cases h : Assoc.get? (childKey parent.key name) r.shared with
  | some uri =>
      rw [share_found hr h]
      exact ⟨r, hr⟩
  | none =>
      rw [share_new hr h]
      exact ⟨r.share parent name, record_add _ _ _ _ _⟩

/-- An event that is accepted leads from one position to the next. -/
theorem Effect.next? {e : Event} {r' : Record} {m m' : Model} {l : List Made}
    (h : Effect d e r m l r' m') :
    Position.next? e (.inside r.entities.length) = some (.inside r'.entities.length) := by
  cases h with
  | leave hentities =>
      rw [hentities]
      rfl
  | value _ _ _ walk _ _ _ =>
      rw [walk.entities]
      rfl
  | _ => rfl

/-- An event that is accepted leads where it should. -/
theorem position_step {e : Event} (h : (step d e s).refusal = none) :
    Position.next? e s.position = some (step d e s).state.position := by
  rcases step_cases h with ⟨id, rfl, hr⟩ | ⟨r, hr, rfl, hentities, hnone, -⟩ |
    ⟨r, r', hr, hr', heffect⟩
  · obtain ⟨-, hstarted, -⟩ := startRecord_ok (h : (startRecord d id s).refusal = none)
    rw [position_of_none hr]
    exact congrArg some (position_of_some hstarted).symm
  · rw [position_of_some hr, position_of_none hnone, hentities]
    rfl
  · rw [position_of_some hr, position_of_some hr']
    exact heffect.next?

/-- Events that are accepted lead from position to position. -/
theorem after?_of_accepted {es : List Event} (h : (Outcome.each (step d) es s).refusal = none) :
    Position.after? es s.position = some (Outcome.each (step d) es s).state.position := by
  induction es generalizing s with
  | nil => rfl
  | cons e rest ih =>
      obtain ⟨hfirst, hrest⟩ := Outcome.refusal_each_cons.1 h
      rw [Position.after?, position_step hfirst, Outcome.state_each_cons hfirst]
      exact ih hrest

/-! ## Why events are refused -/

/-- A statement is only refused for an empty part. -/
theorem refusal_add (record subject predicate : String) (object : Node) (s : State) :
    ∀ x, (add record subject predicate object s).refusal = some x → ∃ part, x = .emptyPart part := by
  intro x hx
  unfold add at hx
  split at hx
  · cases hx
  · exact ⟨_, (Option.some.inj hx).symm⟩

theorem refusal_addClass (record : String) (node : Scope) (uri : String) (s : State) :
    ∀ x, (addClass record node uri s).refusal = some x → ∃ part, x = .emptyPart part :=
  Outcome.refusal_andThen_of (refusal_add _ _ _ _ _) fun _ x hx => by cases hx

/-- Going to a shared entity is only refused for an empty part. -/
theorem refusal_share (name : String) {x : Scope × State} (hr : x.2.record = some r) :
    ∀ y, (share d name x).refusal = some y → ∃ part, y = .emptyPart part := by
  obtain ⟨parent, s⟩ := x
  intro y hy
  cases h : Assoc.get? (childKey parent.key name) r.shared with
  | some uri =>
      rw [share_found hr h] at hy
      cases hy
  | none =>
      rw [share_new hr h] at hy
      exact refusal_add _ _ _ _ _ y hy

/-- A record is open all along, so that nothing but a statement can be refused. -/
theorem refusal_shares (names : List String) {x : Scope × State} (hr : ∃ r, x.2.record = some r) :
    ∀ y, (Outcome.each (share d) names x).refusal = some y → ∃ part, y = .emptyPart part := by
  have hstep : ∀ n ∈ names, ∀ y : Scope × State, (∃ r, y.2.record = some r) →
      (∃ r, (share d n y).state.2.record = some r) ∧
        ∀ z, (share d n y).refusal = some z → ∃ part, z = .emptyPart part := by
    rintro n - y ⟨r, hr⟩
    exact ⟨record_share d n ⟨r, hr⟩, refusal_share n hr⟩
  exact (Outcome.each_invariant (I := fun x : Scope × State => ∃ r, x.2.record = some r) hstep hr).2

theorem refusal_addValue (record attribute_ value : String) (x : Scope × State) :
    ∀ y, (addValue d record attribute_ value x).refusal = some y → ∃ part, y = .emptyPart part :=
  Outcome.refusal_andThen_of (refusal_add _ _ _ _ _) fun _ y hy => by cases hy

/-- A text whose parts are all empty consists of separators. -/
theorem all_nil_of_split {c : Char} {cs : List Char} (h : ∀ p ∈ Text.split c cs, p = []) :
    ∀ x ∈ cs, x = c := by
  induction cs with
  | nil => simp
  | cons a rest ih =>
      intro x hx
      by_cases ha : a = c
      · rw [Text.split, if_pos ha] at h
        rcases List.mem_cons.1 hx with rfl | hx
        · exact ha
        · exact ih (fun p hp => h p (List.mem_cons_of_mem _ hp)) x hx
      · -- the first part holds the character
        rw [Text.split, if_neg ha] at h
        cases hs : Text.split c rest with
        | nil => exact absurd hs (Text.split_ne_nil c rest)
        | cons p ps =>
            rw [hs] at h
            exact absurd (h _ List.mem_cons_self) (by simp)

/-- A name without segments has nothing in it but dots. -/
theorem dots_of_segments {name : String} (h : segments name = []) : ∀ c ∈ name.toList, c = '.' := by
  refine all_nil_of_split fun p hp => ?_
  have hempty := List.filter_eq_nil_iff.1 h (String.ofList p) (List.mem_map_of_mem hp)
  simpa using hempty

/-- A literal is refused for an empty part of a statement, or because its name consists of dots
while it has a value. -/
theorem refusal_literal {name value : String} (hr : s.record = some r) :
    ∀ x, (literal d name value s).refusal = some x → (∃ part, x = .emptyPart part) ∨
      x = .emptyName name ∧ value ≠ "" ∧ ∀ c ∈ name.toList, c = '.' := by
  intro x hx
  unfold literal at hx
  simp only [hr] at hx
  by_cases hvalue : value = ""
  · rw [if_pos hvalue] at hx
    cases hx
  rw [if_neg hvalue] at hx
  by_cases htype : (Name.isType name && Name.isAbsolute value) = true
  · rw [if_pos htype] at hx
    exact .inl (refusal_addClass _ _ _ _ x hx)
  rw [if_neg htype] at hx
  by_cases habsolute : Name.isAbsolute name = true
  · rw [if_pos habsolute] at hx
    exact .inl (refusal_addValue _ _ _ _ x (by simpa using hx))
  rw [if_neg habsolute] at hx
  cases hlast : (segments name).getLast? with
  | none =>
      simp only [hlast] at hx
      have hdots := dots_of_segments (List.getLast?_eq_none_iff.1 hlast)
      exact .inr ⟨(Option.some.inj hx).symm, hvalue, hdots⟩
  | some attribute_ =>
      simp only [hlast] at hx
      -- a record is open all along, so that nothing but a statement can be refused
      exact .inl (Outcome.refusal_andThen_of (refusal_shares _ ⟨r, hr⟩)
        (fun _ => refusal_addValue _ _ _ _) x hx)

/-- An event that may come where it comes is refused for an empty part of a statement, or for a name
of nothing but dots. -/
theorem step_refusal {e : Event} {p : Position} (hnext : Position.next? e s.position = some p) :
    ∀ x, (step d e s).refusal = some x → (∃ part, x = .emptyPart part) ∨
      ∃ name value, e = .literal name value ∧ x = .emptyName name ∧ value ≠ "" ∧
        ∀ c ∈ name.toList, c = '.' := by
  intro x hx
  -- the protocol leaves few events: one in front of a record, and those of the place in it
  cases hr : s.record with
  | none =>
      rw [position_of_none hr] at hnext
      cases e with
      | startRecord id =>
          simp only [step, startRecord, hr, Option.isSome_none, Bool.false_eq_true, if_false] at hx
          cases hclass : d.recordClass with
          | none => simp [hclass, Outcome.quiet] at hx
          | some c =>
              simp only [hclass] at hx
              exact .inl (refusal_addClass _ _ _ _ x hx)
      | _ => cases hnext
  | some r =>
      rw [position_of_some hr] at hnext
      cases e with
      | startRecord id => cases hnext
      | endRecord =>
          cases hentities : r.entities with
          | nil => simp [step, endRecord, hr, hentities, Outcome.quiet] at hx
          | cons inner outer =>
              rw [hentities] at hnext
              cases hnext
      -- what an entity adds can only lack a part
      | startEntity name =>
          simp only [step, startEntity, hr] at hx
          exact .inl (refusal_add _ _ _ _ _ x hx)
      | endEntity =>
          cases hentities : r.entities with
          | nil =>
              rw [hentities] at hnext
              cases hnext
          | cons inner outer => simp [step, endEntity, hr, hentities, Outcome.quiet] at hx
      | literal name value =>
          rcases refusal_literal hr x hx with hpart | hname
          · exact .inl hpart
          · exact .inr ⟨name, value, rfl, hname⟩

/-- The same of events one after the other. -/
theorem each_refusal {es : List Event} (h : (Position.after? es s.position).isSome = true) :
    ∀ x, (Outcome.each (step d) es s).refusal = some x → (∃ part, x = .emptyPart part) ∨
      ∃ name value, .literal name value ∈ es ∧ x = .emptyName name ∧ value ≠ "" ∧
        ∀ c ∈ name.toList, c = '.' := by
  induction es generalizing s with
  | nil =>
      intro x hx
      cases hx
  | cons e rest ih =>
      -- the events lead somewhere, so the first one does
      rw [Position.after?] at h
      cases hnext : Position.next? e s.position with
      | none => simp [hnext] at h
      | some p =>
          rw [hnext] at h
          refine Outcome.refusal_andThen_of ?_ ?_
          · intro x hx
            rcases step_refusal hnext x hx with hpart | ⟨name, value, rfl, hname⟩
            · exact .inl hpart
            · exact .inr ⟨name, value, List.mem_cons_self, hname⟩
          · -- behind an accepted step the position is the one it leads to
            intro hfirst x hx
            have hled := position_step hfirst
            obtain rfl := Option.some.inj (hnext.symm.trans hled)
            rcases ih h x hx with hpart | ⟨name, value, hmem, hname⟩
            · exact .inl hpart
            · exact .inr ⟨name, value, List.mem_cons_of_mem _ hmem, hname⟩

/-! ## Parts that are not empty -/

theorem append_ne_empty {a b : String} (h : a ≠ "") : a ++ b ≠ "" := by
  intro he
  have hlist := congrArg String.toList he
  rw [String.toList_append] at hlist
  exact h (String.toList_inj.1 (List.append_eq_nil_iff.1 hlist).1)

theorem ne_empty_of_isAbsolute {name : String} (h : Name.isAbsolute name = true) : name ≠ "" := by
  rintro rfl
  exact absurd h (by decide)

/-- A name in a base that is not empty is not empty. -/
theorem mint_ne_empty {base name : String} (h : base ≠ "") : Name.mint base name ≠ "" := by
  unfold Name.mint
  split
  · rename_i habsolute
    exact ne_empty_of_isAbsolute habsolute
  · exact append_ne_empty h

/-- The URI of a node is not empty. -/
theorem nodeUri_ne_empty (record key : String) (n : Nat) : nodeUri record key n ≠ "" := by
  intro h
  have hlist := congrArg String.toList h
  simp [toList_nodeUri] at hlist

/-- No node of a record that a statement can be about has an empty URI. -/
structure Record.Solid (r : Record) : Prop where
  uri : r.uri ≠ ""
  entities : ∀ node ∈ r.entities, node.uri ≠ ""
  shared : ∀ key uri, Assoc.get? key r.shared = some uri → uri ≠ ""

theorem solid_start {uri : String} (h : uri ≠ "") : (Record.start uri).Solid :=
  ⟨h, fun _ hnode => absurd hnode List.not_mem_nil, fun _ _ hget => by cases hget⟩

/-- The node that events are about has a URI. -/
theorem Record.Solid.current (h : r.Solid) : r.current.uri ≠ "" := by
  unfold Record.current
  cases hentities : r.entities with
  | nil => exact h.uri
  | cons inner outer => exact h.entities inner (hentities ▸ List.mem_cons_self)

theorem Record.Solid.share (h : r.Solid) (parent : Scope) (name : String) :
    (r.share parent name).Solid := by
  refine ⟨h.uri, h.entities, fun key uri hget => ?_⟩
  rw [Record.share, Assoc.get?_put] at hget
  split at hget
  · obtain rfl := Option.some.inj hget
    exact nodeUri_ne_empty _ _ _
  · exact h.shared key uri hget

/-- A record stays solid whatever happens to it. -/
theorem Record.Solid.move {names classes : List String} {m m' : Model} {l : List Made} {r' : Record}
    (h : r.Solid) (hmove : Move d names classes r m l r' m') : r'.Solid := by
  cases hmove with
  | enter hname link =>
      refine ⟨h.uri, fun node hnode => ?_, h.shared⟩
      rcases List.mem_cons.1 hnode with rfl | hnode
      · exact nodeUri_ne_empty _ _ _
      · exact h.entities node hnode
  | share hparent hname hnew link => exact h.share _ _
  | classify hclass hsubject hpredicate hobject => exact h
  | value hnode hsubject hobject => exact h
  | leave hentities =>
      exact ⟨h.uri, fun node hnode => h.entities node (hentities ▸ List.mem_cons_of_mem _ hnode),
        h.shared⟩

/-- A record stays solid whatever happens to it one after the other. -/
theorem Record.Solid.trail {names classes : List String} {m m' : Model} {l : List Made} {r' : Record}
    (h : r.Solid) (htrail : Trail d names classes r m l r' m') : r'.Solid := by
  induction htrail with
  | stay => exact h
  | move first _ ih => exact ih (h.move first)

def State.Solid (s : State) : Prop :=
  ∀ r, s.record = some r → r.Solid

/-- An event that is accepted leaves the record at hand solid. -/
theorem State.Solid.step (hd : d.Usable) (h : s.Solid) {e : Event}
    (haccepted : (step d e s).refusal = none) : (step d e s).state.Solid := by
  intro r' hr'
  rcases step_cases haccepted with ⟨id, rfl, -⟩ | ⟨r, -, -, -, hnone, -⟩ | ⟨r, r'', hr, hr'', heffect⟩
  · obtain ⟨-, hstarted, -⟩ := startRecord_ok (haccepted : (startRecord d id s).refusal = none)
    obtain rfl := Option.some.inj (hstarted.symm.trans hr')
    exact solid_start (mint_ne_empty hd.recordBase)
  · rw [hnone] at hr'
    cases hr'
  · obtain rfl := Option.some.inj (hr''.symm.trans hr')
    exact (h r hr).trail (heffect.advance hr (List.Subset.refl _) (List.Subset.refl _)).trail

/-- A statement without an empty part is accepted. -/
theorem add_accepted {record subject predicate : String} {object : Node} (hsubject : subject ≠ "")
    (hpredicate : predicate ≠ "") (hobject : object ≠ .resource "") :
    (add record subject predicate object s).refusal = none := by
  simp only [add, Statement.make?, dif_neg hsubject, dif_neg hpredicate, dif_neg hobject]
  rfl

theorem addClass_accepted {record uri : String} {node : Scope} (hnode : node.uri ≠ "")
    (huri : uri ≠ "") : (addClass record node uri s).refusal = none := by
  have hobject : Node.resource uri ≠ .resource "" := fun he => huri (Node.resource.inj he)
  have hadd : (add record node.uri Name.typePredicate (.resource uri) s).refusal = none :=
    add_accepted hnode (by decide) hobject
  rw [addClass, Outcome.andThen_of_none hadd]
  rfl

/-- A value is accepted under any attribute of a node with a URI. -/
theorem addValue_accepted {record attribute_ value : String} {x : Scope × State} (hd : d.Usable)
    (hnode : x.1.uri ≠ "") : (addValue d record attribute_ value x).refusal = none := by
  have hadd : (add record x.1.uri (predicate d attribute_) (.literal value) x.2).refusal = none :=
    add_accepted hnode (mint_ne_empty hd.schemaBase) fun he => by cases he
  simp only [addValue, Outcome.andThen_of_none hadd]
  rfl

/-- Going to a shared entity from a node with a URI leads to another such node. -/
theorem share_accepted (hd : d.Usable) (name : String) {x : Scope × State}
    (h : x.1.uri ≠ "" ∧ ∃ r, x.2.record = some r ∧ r.Solid) :
    ((share d name x).state.1.uri ≠ "" ∧
        ∃ r, (share d name x).state.2.record = some r ∧ r.Solid) ∧
      (share d name x).refusal = none := by
  obtain ⟨parent, s⟩ := x
  obtain ⟨hparent, r, hr, hsolid⟩ := h
  -- a node that is shared is used again, otherwise a new one is linked
  cases hshared : Assoc.get? (childKey parent.key name) r.shared with
  | some uri =>
      rw [share_found hr hshared]
      exact ⟨⟨hsolid.shared _ _ hshared, r, hr, hsolid⟩, rfl⟩
  | none =>
      rw [share_new hr hshared]
      constructor
      · exact ⟨nodeUri_ne_empty _ _ _, r.share parent name, record_add _ _ _ _ _,
          hsolid.share _ _⟩
      · refine add_accepted hparent (mint_ne_empty hd.schemaBase) ?_
        intro he
        exact nodeUri_ne_empty _ _ _ (Node.resource.inj he)

/-- A usable data model lets literals lead through any entities of a solid record. -/
theorem shares_accepted (hd : d.Usable) (names : List String) {x : Scope × State}
    (h : x.1.uri ≠ "" ∧ ∃ r, x.2.record = some r ∧ r.Solid) :
    (Outcome.each (share d) names x).state.1.uri ≠ "" ∧
      (Outcome.each (share d) names x).refusal = none := by
  have hrefused : ∀ n, ∀ y : Scope × State, (y.1.uri ≠ "" ∧ ∃ r, y.2.record = some r ∧ r.Solid) →
      ∀ z, (share d n y).refusal ≠ some z := by
    intro n y hy z hz
    rw [(share_accepted hd n hy).2] at hz
    cases hz
  have hall := Outcome.each_invariant
    (I := fun y : Scope × State => y.1.uri ≠ "" ∧ ∃ r, y.2.record = some r ∧ r.Solid)
    (fun n (_ : n ∈ names) y hy => ⟨(share_accepted hd n hy).1, hrefused n y hy⟩) h
  exact ⟨hall.1.1, Option.eq_none_iff_forall_ne_some.2 hall.2⟩

/-- A usable data model accepts a literal without a value, or with a name that has a character
besides dots. -/
theorem literal_accepted (hd : d.Usable) {name value : String} (hr : s.record = some r)
    (hsolid : r.Solid) (hname : value = "" ∨ ∃ c ∈ name.toList, c ≠ '.') :
    (literal d name value s).refusal = none := by
  unfold literal
  simp only [hr]
  by_cases hvalue : value = ""
  · rw [if_pos hvalue]
    rfl
  rw [if_neg hvalue]
  by_cases htype : (Name.isType name && Name.isAbsolute value) = true
  · rw [if_pos htype]
    exact addClass_accepted hsolid.current hvalue
  rw [if_neg htype]
  by_cases habsolute : Name.isAbsolute name = true
  · rw [if_pos habsolute]
    exact addValue_accepted (x := (r.current, s)) hd hsolid.current
  rw [if_neg habsolute]
  cases hlast : (segments name).getLast? with
  | none =>
      -- the name would have nothing in it but dots
      obtain ⟨c, hc, hdot⟩ := hname.resolve_left hvalue
      exact absurd (dots_of_segments (List.getLast?_eq_none_iff.1 hlast) c hc) hdot
  | some attribute_ =>
      simp only
      obtain ⟨hkept, hnone⟩ := shares_accepted hd (segments name).dropLast
        (x := (r.current, s)) ⟨hsolid.current, r, hr, hsolid⟩
      rw [Outcome.andThen_of_none hnone]
      exact addValue_accepted hd hkept

/-- With a usable data model an event that may come is accepted, unless it is a literal that has no
name. -/
theorem step_accepted (hd : d.Usable) (hs : s.Solid) {e : Event} {p : Position}
    (hnext : Position.next? e s.position = some p)
    (hname : ∀ name value, e = .literal name value → value = "" ∨ ∃ c ∈ name.toList, c ≠ '.') :
    (step d e s).refusal = none := by
  cases hr : s.record with
  -- the events that the protocol leaves are taken one by one
  | none =>
      rw [position_of_none hr] at hnext
      cases e with
      | startRecord id =>
          simp only [step, startRecord, hr, Option.isSome_none, Bool.false_eq_true, if_false]
          cases hclass : d.recordClass with
          | none => rfl
          | some c =>
              refine addClass_accepted (mint_ne_empty hd.recordBase) ?_
              rintro rfl
              exact hd.recordClass hclass
      | _ => cases hnext
  | some r =>
      have hsolid := hs r hr
      rw [position_of_some hr] at hnext
      cases e with
      | startRecord id => cases hnext
      | endRecord =>
          cases hentities : r.entities with
          | nil =>
              simp only [step, endRecord, hr, hentities]
              rfl
          | cons inner outer =>
              rw [hentities] at hnext
              cases hnext
      | startEntity name =>
          simp only [step, startEntity, hr]
          -- the URI of a new node is never empty
          refine add_accepted hsolid.current (mint_ne_empty hd.schemaBase) fun he => ?_
          exact nodeUri_ne_empty _ _ _ (Node.resource.inj he)
      | endEntity =>
          cases hentities : r.entities with
          | nil =>
              rw [hentities] at hnext
              cases hnext
          | cons inner outer =>
              simp only [step, endEntity, hr, hentities]
              rfl
      | literal name value => exact literal_accepted hd hr hsolid (hname name value rfl)

/-- A usable data model accepts events that are in order and whose literals have names. -/
theorem each_accepted (hd : d.Usable) (hs : s.Solid) {es : List Event}
    (h : (Position.after? es s.position).isSome = true)
    (hnames : ∀ name value, .literal name value ∈ es → value = "" ∨ ∃ c ∈ name.toList, c ≠ '.') :
    (Outcome.each (step d) es s).refusal = none := by
  induction es generalizing s with
  | nil => rfl
  | cons e rest ih =>
      rw [Position.after?] at h
      cases hnext : Position.next? e s.position with
      | none => simp [hnext] at h
      | some p =>
          rw [hnext] at h
          -- the step that is accepted leads to where the protocol says
          have hfirst := step_accepted hd hs hnext fun name value he =>
            hnames name value (he ▸ List.mem_cons_self)
          obtain rfl := Option.some.inj (hnext.symm.trans (position_step hfirst))
          exact Outcome.refusal_each_cons.2 ⟨hfirst, ih (hs.step hd hfirst) h
            fun name value hmem => hnames name value (List.mem_cons_of_mem _ hmem)⟩

end Steps

/-! ## Runs -/

/-- With a usable data model, and apart from literals that have a value and no name, the encoder
accepts exactly the beginnings of series of whole records: the events in which no record starts
inside another, entities and literals stand in records, every entity that ends is open, and every
record that ends has none open. -/
theorem run_accepted_iff {d : DataModel} (hd : d.Usable) {es : List Event}
    (hnames : ∀ name value, .literal name value ∈ es → value = "" ∨ ∃ c ∈ name.toList, c ≠ '.') :
    ((run d es).refusal = none ↔ ∃ qs : List WholeRecord, es <+: qs.flatMap WholeRecord.events) ∧
      ((run d es).refusal = none ↔ (Position.after? es .outside).isSome = true) := by
  have hiff : (run d es).refusal = none ↔ (Position.after? es .outside).isSome = true := by
    constructor
    · intro haccepted
      have hled := after?_of_accepted haccepted
      rw [position_of_none rfl] at hled
      rw [hled]
      rfl
    · intro hled
      exact each_accepted hd (s := initial) (fun r hr => by cases hr) hled hnames
  exact ⟨hiff.trans Position.after?_isSome_iff, hiff⟩

/-- Two records, the second of them not ended, with entities of both kinds, a class and a literal that
says nothing. -/
def unfinished : List Event :=
  [.startRecord "r", .startEntity "a", .literal "b.c" "x", .startEntity "", .literal "..." "",
    .endEntity, .endEntity, .literal "rdf:type" "http://example.org/C", .endRecord,
    .startRecord "q", .startEntity "a", .literal ".d" "y"]

/-- A document that breaks off inside its second record is accepted, being the front of one with
whole records. -/
theorem run_accepted_iff_unfinished :
    (run .standard unfinished).refusal = none ∧
      ∃ qs : List WholeRecord, unfinished <+: qs.flatMap WholeRecord.events := by
  have hd : DataModel.standard.Usable := ⟨by decide, by decide, by decide⟩
  have hled : (Position.after? unfinished .outside).isSome = true := by decide
  -- each literal has a name with more than dots in it, or no value
  have hnames : ∀ name value, .literal name value ∈ unfinished →
      value = "" ∨ ∃ c ∈ name.toList, c ≠ '.' := by
    intro name value hmem
    simp only [unfinished, List.mem_cons, reduceCtorEq, Event.literal.injEq, false_or, or_false,
      List.not_mem_nil] at hmem
    rcases hmem with ⟨rfl, rfl⟩ | ⟨rfl, rfl⟩ | ⟨rfl, rfl⟩ | ⟨rfl, rfl⟩
    · exact .inr ⟨'b', by decide, by decide⟩
    · exact .inl rfl
    · exact .inr ⟨':', by decide, by decide⟩
    · exact .inr ⟨'d', by decide, by decide⟩
  obtain ⟨hfront, horder⟩ := run_accepted_iff hd hnames
  have haccepted := horder.2 hled
  exact ⟨haccepted, hfront.1 haccepted⟩

end Encoder
end Recast
