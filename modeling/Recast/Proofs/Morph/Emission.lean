import Recast.Flow.Program
import Recast.Proofs.Morph.Intake
import Recast.Proofs.Stream.Protocol

/-!
# Emission — what programs hand on

A script turns records with entities into records of flat literals.  What it hands on is in order if
what it receives is, also up to the event at which it stops, and it stops only where a variable feeds
variables too often: `Program.run_ordered`.
-/

namespace Recast

open Position (Level after? next? after?_append)

/-- Where events without entities stand. -/
def Position.flat : Position → Position
  | .outside => .outside
  | .inside _ => .inside 0

/-- A variable feeds variables too often. -/
def Refusal.OfVariable (r : Refusal) : Prop :=
  ∃ v, r = .tooDeep v ∧ Script.isVariable v = true

namespace Morph

variable {m : Morph}

/-! ## Values -/

/-- Nothing but literals goes out, and nothing but a variable is refused. -/
structure Emits (o : Outcome State) : Prop where
  level : Level o.out
  refusal : ∀ r, o.refusal = some r → r.OfVariable

theorem Emits.quiet (s : State) : Emits (.quiet s) :=
  ⟨.nil, fun r hr => by cases hr⟩

/-- Outcomes that emit nothing but literals may follow each other. -/
theorem Emits.andThen {o : Outcome State} {f : State → Outcome State} (h : Emits o)
    (h' : Emits (f o.state)) : Emits (o.andThen f) := by
  refine ⟨?_, Outcome.refusal_andThen_of h.refusal fun _ => h'.refusal⟩
  cases hrefusal : o.refusal with
  | some r =>
      rw [Outcome.andThen_of_refusal hrefusal]
      exact h.level
  | none =>
      rw [Outcome.andThen_of_none hrefusal]
      exact h.level.append h'.level

/-- Steps that emit nothing but literals do so one after the other. -/
theorem Emits.each {α : Type u} {f : α → State → Outcome State} {as : List α}
    (hstep : ∀ a ∈ as, ∀ s, Emits (f a s)) (s : State) : Emits (Outcome.each f as s) := by
  induction as generalizing s with
  | nil => exact .quiet s
  | cons a rest ih =>
      obtain ⟨hfirst, hrest⟩ := List.forall_mem_cons.1 hstep
      rw [Outcome.each_cons]
      exact (hfirst s).andThen (ih hrest _)

/-- What goes out is a literal, or is dispatched further. -/
theorem emits_emitTo {dispatch : String → String → State → Outcome State} {name : String}
    (hdispatch : Script.isVariable name = true → ∀ value s, Emits (dispatch name value s))
    (value : String) (s : State) : Emits (emitTo dispatch name value s) := by
  unfold emitTo
  split
  · rename_i hvariable
    exact hdispatch hvariable value s
  · exact ⟨.literal name value, fun r hr => by cases hr⟩

/-- Only variables are ever looked for in vain: the path of a literal has a level to itself. -/
theorem emits_dispatch (levels : Nat) {path : String}
    (h : levels ≠ 0 ∨ Script.isVariable path = true) (value : String) (s : State) :
    Emits (dispatch m levels path value s) := by
  -- by induction on the levels: what pipes emit goes on one level further down, as a variable
  induction levels generalizing path value s with
  | zero =>
      refine ⟨.nil, fun r hr => ⟨path, (Option.some.inj hr).symm, ?_⟩⟩
      exact h.resolve_left fun hne => hne rfl
  | succ levels ih =>
      have hemit : ∀ name v s, Emits (emitTo (dispatch m levels) name v s) := fun name v s =>
        emits_emitTo (fun hvariable => ih (.inr hvariable)) v s
      refine Emits.each (fun q _ s' => ?_) s
      have hrun := pipeRun m (emitTo (dispatch m levels)) (emitLog (dispatchLog m levels)) value q s'
      generalize runPipe m (emitTo (dispatch m levels)) value q s' = o,
        pipeLog m (emitLog (dispatchLog m levels)) value q s' = l at hrun
      cases hrun with
      | dropped _ | lost _ _ _ | kept _ _ _ => exact .quiet _
      | emits _ _ => exact hemit _ _ _
      | answered _ _ _ => exact hemit _ _ _

/-- Flushing a collector emits nothing but literals. -/
theorem emits_flush (c : NamedCollector × Nat) (s : State) : Emits (flush m c s) := by
  unfold flush
  split
  · exact emits_emitTo (fun hvariable => emits_dispatch _ (.inr hvariable)) _ s
  · exact .quiet s

/-! ## Events -/

/-- As many entities are open as have been started in the record. -/
def State.Follows (s : State) (p : Position) : Prop :=
  ∀ n, p = .inside n → s.entities.length = n

/-- From one position events lead to another one, as long as no variable is refused. -/
structure Ordered (p q : Position) (o : Outcome State) : Prop where
  leads : (after? o.out p.flat).isSome = true
  arrives : o.refusal = none → after? o.out p.flat = some q.flat ∧ o.state.Follows q
  refusal : ∀ r, o.refusal = some r → r.OfVariable

/-- An outcome is in order if what is handed on leads from one position to the other. -/
theorem Ordered.of_arrives {p q : Position} {o : Outcome State}
    (harrives : after? o.out p.flat = some q.flat) (hfollows : o.state.Follows q)
    (hrefusal : ∀ r, o.refusal = some r → r.OfVariable) : Ordered p q o :=
  ⟨by rw [harrives]; rfl, fun _ => ⟨harrives, hfollows⟩, hrefusal⟩

/-- Outcomes in order may follow each other. -/
theorem Ordered.andThen {p q q' : Position} {o : Outcome State} {f : State → Outcome State}
    (h : Ordered p q o) (h' : o.state.Follows q → Ordered q q' (f o.state)) :
    Ordered p q' (o.andThen f) := by
  cases hrefusal : o.refusal with
  | some r =>
      -- behind a refusal nothing is let out any more
      rw [Outcome.andThen_of_refusal hrefusal]
      refine ⟨h.leads, fun hnone => ?_, h.refusal⟩
      rw [hrefusal] at hnone
      cases hnone
  | none =>
      obtain ⟨harrives, hfollows⟩ := h.arrives hrefusal
      have hrest := h' hfollows
      rw [Outcome.andThen_of_none hrefusal]
      have hout : after? (o.out ++ (f o.state).out) p.flat = after? (f o.state).out q.flat := by
        rw [after?_append, harrives]
        rfl
      exact ⟨hout ▸ hrest.leads, fun hnone => hout ▸ hrest.arrives hnone, hrest.refusal⟩

/-- An event that may come leads on in order. -/
theorem ordered_step {e : Event} {p q : Position} {s : State} (hnext : next? e p = some q)
    (hs : s.Follows p) : Ordered p q (m.step e s) := by
  have hnone : ∀ r, (none : Option Refusal) = some r → r.OfVariable := fun r hr => by cases hr
  cases e with
  | startRecord id =>
      cases p with
      | inside n => cases hnext
      | outside =>
          obtain rfl := Option.some.inj hnext
          refine .of_arrives rfl (fun n hn => ?_) hnone
          obtain rfl := Position.inside.inj hn
          rfl
  | endRecord =>
      rcases p with _ | _ | n
      · cases hnext
      · obtain rfl := Option.some.inj hnext
        have hflushes : Emits (Outcome.each (flush m) m.collectors.zipIdx s) :=
          Emits.each (fun c _ t => emits_flush c t) s
        have hlevel : after? (Outcome.each (flush m) m.collectors.zipIdx s).out
            (Position.inside 0).flat = some (.inside 0) := hflushes.level 0
        rw [step]
        cases hrefusal : (Outcome.each (flush m) m.collectors.zipIdx s).refusal with
        | some r =>
            rw [Outcome.andThen_of_refusal hrefusal]
            refine ⟨?_, fun haccepted => ?_, hflushes.refusal⟩
            · rw [hlevel]
              rfl
            · rw [hrefusal] at haccepted
              cases haccepted
        | none =>
            -- the literals of the collectors come before the end of the record
            rw [Outcome.andThen_of_none hrefusal]
            refine .of_arrives ?_ (fun n hn => by cases hn) hnone
            rw [after?_append, hlevel]
            rfl
      · cases hnext
  | startEntity name =>
      cases p with
      | outside => cases hnext
      | inside n =>
          obtain rfl := Option.some.inj hnext
          refine .of_arrives rfl (fun k hk => ?_) hnone
          obtain rfl := Position.inside.inj hk
          simp [step, Outcome.quiet, hs n rfl]
  | endEntity =>
      rcases p with _ | _ | n
      · cases hnext
      · cases hnext
      · obtain rfl := Option.some.inj hnext
        have hlength := hs (n + 1) rfl
        have hopen : s.entities.isEmpty = false := by
          cases hentities : s.entities with
          | nil => simp [hentities] at hlength
          | cons outer rest => rfl
        rw [step, hopen]
        refine .of_arrives rfl (fun k hk => ?_) hnone
        obtain rfl := Position.inside.inj hk
        simp [Outcome.quiet, hlength]
  | literal name value =>
      cases p with
      | outside => cases hnext
      | inside n =>
          obtain rfl := Option.some.inj hnext
          have hemitted : Emits (dispatch m (Refusal.maxDepth + 1) (Source.path s.entities name)
              value s) := emits_dispatch _ (.inl (Nat.succ_ne_zero _)) value s
          refine .of_arrives (hemitted.level 0) (fun k hk => ?_) hemitted.refusal
          exact (congrArg List.length (entities_dispatch _ _ value s)).trans (hs k hk)

/-- Events that may come one after the other lead on in order. -/
theorem ordered_each {es : List Event} {p q : Position} (hled : after? es p = some q) {s : State}
    (hs : s.Follows p) : Ordered p q (Outcome.each m.step es s) := by
  induction es generalizing p s with
  | nil =>
      obtain rfl := Option.some.inj hled
      exact .of_arrives rfl hs fun r hr => by cases hr
  | cons e rest ih =>
      obtain ⟨r, hnext, hrest⟩ := Option.bind_eq_some_iff.1 hled
      rw [Outcome.each_cons]
      exact (ordered_step hnext hs).andThen fun hfollows => ih hrest hfollows

end Morph

/-! ## Programs -/

theorem Program.run_identity (es : List Event) :
    (Program.identity.run es).out = es ∧ (Program.identity.run es).refusal = none := by
  suffices h : ∀ s, (Outcome.each Program.identity.step es s).out = es ∧
      (Outcome.each Program.identity.step es s).refusal = none from h _
  induction es with
  | nil => exact fun _ => ⟨rfl, rfl⟩
  | cons e rest ih =>
      intro s
      obtain ⟨hout, hrefusal⟩ := ih s
      exact ⟨congrArg (e :: ·) hout, hrefusal⟩

/-- What a program hands on is in order if what it receives is, and it refuses nothing but variables
that feed variables too often. -/
theorem Program.run_ordered (p : Program) {es : List Event}
    (h : (after? es .outside).isSome = true) :
    (after? (p.run es).out .outside).isSome = true ∧
      ∀ r, (p.run es).refusal = some r → r.OfVariable := by
  cases p with
  | identity =>
      obtain ⟨hout, hrefusal⟩ := Program.run_identity es
      rw [hout, hrefusal]
      exact ⟨h, fun r hr => by cases hr⟩
  | morph script m built =>
      obtain ⟨q, hled⟩ := Option.isSome_iff_exists.1 h
      have hordered := Morph.ordered_each (m := m) hled (s := m.initial) fun n hn => by cases hn
      exact ⟨hordered.leads, hordered.refusal⟩

end Recast
