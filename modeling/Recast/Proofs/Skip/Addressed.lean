import Recast.Proofs.Morph.Intake
import Recast.Proofs.Morph.Reset
import Recast.Proofs.Result
import Recast.Proofs.Skip.Kept
import Recast.Proofs.Stream.Content

/-!
# Addressed — the paths of literals in skip rules and in programs

Skip rules and programs keep the entities that are open, and say by the path of a literal what
becomes of it.  Behind the same events of a record both have the same entities open, unless one of
these is left out.  The paths that they make of them are the same as well, except for a literal of
which the only entity around it has no name: in a program its path starts with a dot, in skip rules
it does not.

Main statement: `SkipRules.addresses_agree_iff`.
-/

namespace Recast

/-! ## Paths -/

namespace Text

theorem glue_concat (d : String) {ps : List String} (h : ps ≠ []) (p : String) :
    glue d (ps ++ [p]) = glue d ps ++ d ++ p := by
  induction ps with
  | nil => exact absurd rfl h
  | cons q rest ih =>
      cases rest with
      | nil => rfl
      | cons q' more =>
          calc glue d (q :: q' :: more ++ [p])
              = q ++ d ++ glue d (q' :: more ++ [p]) := rfl
            _ = q ++ d ++ (glue d (q' :: more) ++ d ++ p) := by rw [ih (List.cons_ne_nil _ _)]
            _ = glue d (q :: q' :: more) ++ d ++ p := by simp [glue, String.append_assoc]

/-- Texts with a dot between any two of them make an empty text only if there are none, or only one
that is empty. -/
theorem glue_eq_empty_iff {ps : List String} : glue "." ps = "" ↔ ps = [] ∨ ps = [""] := by
  match ps with
  | [] => simp [glue]
  | [p] => simp [glue]
  | p :: q :: rest => simp [glue]

end Text

namespace SkipRules

/-- The paths in skip rules and in programs differ for a sole entity without a name. -/
theorem pathOf_eq_path_iff (around : List String) (name : String) :
    pathOf around name = Source.path around name ↔ around ≠ [""] := by
  unfold pathOf Source.path
  by_cases hnil : around = []
  · subst hnil
    simp [Text.glue]
  · rw [Text.glue_concat "." hnil]
    -- the empty name alone is the one nesting whose joined names leave no text
    by_cases hsole : around = [""]
    · subst hsole
      simp only [Text.glue, if_true, ne_eq, not_true_eq_false, iff_false]
      intro h
      have hlength := congrArg String.length h
      simp [String.length_append] at hlength
    · have hglue : Text.glue "." around ≠ "" := fun h =>
        (Text.glue_eq_empty_iff.1 h).elim hnil hsole
      simp [hglue, hsole]

/-! ## Open entities -/

/-- What becomes of a literal under a path. -/
def examine (r : SkipRules) (path name value : String) (s : State) : Outcome State :=
  let s := { s with dropping := s.dropping || r.dropsRecord path value }
  if r.dropsLiteral path then .quiet s else r.forward (.literal name value) s

variable {r : SkipRules} {m : Morph}

/-- A literal outside the entities that are left out is looked at under its path. -/
theorem step_literal {s : State} (h : s.depth = 0) (name value : String) :
    r.step (.literal name value) s = r.examine (pathOf s.path name) name value s := by
  have hopen : ¬ 0 < s.depth := Nat.not_lt.2 (Nat.le_of_eq h)
  simp only [step, hopen, if_false]
  rfl

def behind (r : SkipRules) (es : List Event) (s : State) : State :=
  (Outcome.each r.step es s).state

/-- Skip rules that leave nothing out at the moment and a program have the same entities open. -/
structure SameOpen (around : List String) (s : State) (t : Morph.State) : Prop where
  kept : s.depth = 0
  path : s.path = around
  entities : t.entities = around

/-- Skip rules refuse nothing. -/
theorem refusal_step (e : Event) (s : State) : (r.step e s).refusal = Option.none := by
  have hforward : ∀ e s, (r.forward e s).refusal = Option.none := fun e s => by
    rw [forward_eq]
    rfl
  cases e with
  | startRecord id => exact hforward _ _
  | endRecord =>
      simp only [step]
      split
      · rfl
      · split
        · rfl
        · rfl
  | startEntity name | endEntity =>
      simp only [step]
      split
      · rfl
      · exact hforward _ _
  | literal name value =>
      simp only [step]
      split
      · rfl
      · split
        · rfl
        · exact hforward _ _

theorem behind_cons (e : Event) (es : List Event) (s : State) :
    r.behind (e :: es) s = r.behind es (r.step e s).state :=
  Outcome.state_each_cons (refusal_step e s)

/-- The start of a record closes whatever is open. -/
theorem sameOpen_startRecord (id : String) (s : State) (t : Morph.State) :
    SameOpen [] (r.step (.startRecord id) s).state (m.step (.startRecord id) t).state := by
  refine ⟨?_, ?_, rfl⟩ <;>
  · rw [step, forward_eq]
    rfl

/-- Inside a record an event that is not left out leaves the same entities open on both sides. -/
theorem SameOpen.step {around : List String} {e : Event} {s : State} {t : Morph.State}
    (h : SameOpen around s t) (hinside : e ≠ .endRecord)
    (hkept : ∀ name, e = .startEntity name → name ∉ r.entities) :
    SameOpen (e.nest around) (r.step e s).state (m.step e t).state := by
  have hopen : ¬ 0 < s.depth := Nat.not_lt.2 (Nat.le_of_eq h.kept)
  cases e with
  | startRecord id => exact sameOpen_startRecord id s t
  | endRecord => exact absurd rfl hinside
  | startEntity name =>
      have hname : ¬ (decide (0 < s.depth) || r.entities.contains name) = true := by
        simpa [h.kept] using hkept name rfl
      simp only [SkipRules.step, hname, forward_eq, Morph.step]
      exact ⟨h.kept, by rw [← h.path]; rfl, by rw [← h.entities]; rfl⟩
  | endEntity =>
      have hentities : (m.step .endEntity t).state.entities = t.entities.dropLast := by
        simp only [Morph.step]
        split
        · rename_i hempty
          -- where nothing is open there is nothing to close
          rw [List.isEmpty_iff.1 hempty]
          exact List.isEmpty_iff.1 hempty
        · rfl
      simp only [SkipRules.step, hopen, if_false, forward_eq]
      exact ⟨h.kept, by rw [← h.path]; rfl, by rw [hentities, h.entities]; rfl⟩
  | literal name value =>
      have hentities : (m.step (.literal name value) t).state.entities = t.entities :=
        Morph.entities_dispatch _ _ value t
      rw [step_literal h.kept, examine]
      split
      · exact ⟨h.kept, h.path, hentities.trans h.entities⟩
      · rw [forward_eq]
        exact ⟨h.kept, h.path, hentities.trans h.entities⟩

/-- Skip rules and program keep the same entities open. -/
theorem SameOpen.behind {es : List Event} (hinside : .endRecord ∉ es)
    (hkept : ∀ name, .startEntity name ∈ es → name ∉ r.entities) {around : List String}
    {s : State} {t : Morph.State} (h : SameOpen around s t) :
    SameOpen (Event.nested around es) (r.behind es s) (m.behind es t) := by
  induction es generalizing around s t with
  | nil => exact h
  | cons e rest ih =>
      obtain ⟨hfirst, hrest⟩ : e ≠ .endRecord ∧ .endRecord ∉ rest := by
        simpa [eq_comm] using hinside
      rw [behind_cons]
      refine ih hrest (fun name hname => hkept name (List.mem_cons_of_mem _ hname)) ?_
      exact h.step hfirst fun name hname => hkept name (hname ▸ List.mem_cons_self)

/-! ## Literals -/

/-- In front of a literal of a record the record has started and not ended. -/
theorem started_of_split {q : WholeRecord} {before behind : List Event} {name value : String}
    (h : q.events = before ++ .literal name value :: behind) :
    ∃ es, before = .startRecord q.id :: es ∧ .endRecord ∉ es := by
  cases before with
  | nil => simp [WholeRecord.events] at h
  | cons e es =>
      obtain ⟨hfirst, hrest⟩ := List.cons.inj h
      -- without the end of the record the content is left, of which the literal is a part
      have hcontent : q.content.events = es ++ (Event.literal name value :: behind).dropLast :=
        calc q.content.events
            = (q.content.events ++ [Event.endRecord]).dropLast := List.dropLast_concat.symm
          _ = (es ++ .literal name value :: behind).dropLast := congrArg List.dropLast hrest
          _ = es ++ (Event.literal name value :: behind).dropLast :=
              List.dropLast_append_of_ne_nil (List.cons_ne_nil _ _)
      refine ⟨es, by rw [hfirst], fun hmem => ?_⟩
      have hin : Event.endRecord ∈ q.content.events := hcontent ▸ List.mem_append_left _ hmem
      exact (Morph.ne_endRecord_of_mem hin).1 rfl

/-- For a record of which no entity is left out, from whatever states, skip rules examine a literal
under the path of its name inside the entities that are open, and a program looks for its rules
under the path of the same name inside the same entities.  The two paths are the same unless the only
open entity has no name. -/
theorem addresses_agree_iff (r : SkipRules) (m : Morph) (q : WholeRecord)
    (hkept : ∀ name, .startEntity name ∈ q.events → name ∉ r.entities)
    {before behind : List Event} {name value : String}
    (hsplit : q.events = before ++ .literal name value :: behind) (s : State) (t : Morph.State) :
    r.step (.literal name value) (r.behind before s) =
        r.examine (pathOf (Event.nested [] before) name) name value (r.behind before s) ∧
      m.step (.literal name value) (m.behind before t) =
        m.dispatch (Refusal.maxDepth + 1) (Source.path (Event.nested [] before) name) value
          (m.behind before t) ∧
      (pathOf (Event.nested [] before) name = Source.path (Event.nested [] before) name ↔
        Event.nested [] before ≠ [""]) := by
  obtain ⟨es, rfl, hinside⟩ := started_of_split hsplit
  have hopen : SameOpen (Event.nested [] es) (r.behind (.startRecord q.id :: es) s)
      (m.behind (.startRecord q.id :: es) t) := by
    rw [behind_cons]
    refine SameOpen.behind hinside (fun name hname => hkept name ?_) (sameOpen_startRecord q.id s t)
    rw [hsplit]
    exact List.mem_append_left _ (List.mem_cons_of_mem _ hname)
  refine ⟨?_, ?_, pathOf_eq_path_iff _ name⟩
  · rw [step_literal hopen.kept, hopen.path]
    rfl
  · rw [Morph.step, hopen.entities]
    rfl

def twiceNameless : WholeRecord :=
  ⟨"r", .entity "" (.entity "" (.literal "a" "v" .done) (.literal "b" "w" .done)) .done⟩

/-- Inside both entities the path has two dots in front, in skip rules and in a program. -/
theorem addresses_agree_nested :
    (∀ name, .startEntity name ∈ twiceNameless.events → name ∉ ["about"]) ∧
      twiceNameless.events = [.startRecord "r", .startEntity "", .startEntity ""] ++
        .literal "a" "v" :: [.endEntity, .literal "b" "w", .endEntity, .endRecord] ∧
      step ⟨["about"], [], []⟩ (.literal "a" "v") ⟨["", ""], 0, [], false, 0⟩ =
        examine ⟨["about"], [], []⟩ "..a" "a" "v" ⟨["", ""], 0, [], false, 0⟩ ∧
      Morph.step ⟨[], []⟩ (.literal "a" "v") ⟨[], [], ["", ""]⟩ =
        Morph.dispatch ⟨[], []⟩ (Refusal.maxDepth + 1) "..a" "v" ⟨[], [], ["", ""]⟩ ∧
      (pathOf ["", ""] "a" = Source.path ["", ""] "a" ↔ ["", ""] ≠ [""]) := by
  have hkept : ∀ name, .startEntity name ∈ twiceNameless.events → name ∉ ["about"] := by
    intro name hname
    have hempty : name = "" := by simpa [twiceNameless, WholeRecord.events, Content.events] using hname
    simp [hempty]
  have hsplit : twiceNameless.events = [.startRecord "r", .startEntity "", .startEntity ""] ++
      .literal "a" "v" :: [.endEntity, .literal "b" "w", .endEntity, .endRecord] := rfl
  have hagree := addresses_agree_iff ⟨["about"], [], []⟩ ⟨[], []⟩ twiceNameless hkept hsplit initial
    ⟨[], [], []⟩
  exact ⟨hkept, hsplit, hagree⟩

/-- A record with a literal of which the only entity around it has no name. -/
def onceNameless : WholeRecord :=
  ⟨"r", .entity "" (.literal "a" "v" .done) .done⟩

def dotted : Script :=
  ⟨"", .empty, [.data ⟨".a", some "t", Option.none, []⟩], .empty, .empty⟩

/-- A program finds the literal under a path for which skip rules do not leave it out. -/
theorem nameless_addressed_apart :
    ∃ p m, Pattern.ofText? "^\\.a$" = some p ∧ p.matches ".a" = true ∧
      Morph.ofScript dotted = .ok m ∧
      (m.run onceNameless.events).out = [.startRecord "r", .literal "t" "v", .endRecord] ∧
      (run ⟨[], [p], []⟩ onceNameless.events).out = onceNameless.events := by
  have hpattern : ((Pattern.ofText? "^\\.a$").map fun p =>
      (p.matches ".a", (run ⟨[], [p], []⟩ onceNameless.events).out)) =
        some (true, onceNameless.events) := by
    decide +kernel
  have hprogram : ((Morph.ofScript dotted).toOption.map fun m => (m.run onceNameless.events).out) =
      some [.startRecord "r", .literal "t" "v", .endRecord] := by
    decide +kernel
  obtain ⟨p, hp, hfacts⟩ := Option.map_eq_some_iff.1 hpattern
  obtain ⟨m, hm, hout⟩ := toOption_map_eq_some.1 hprogram
  obtain ⟨hmatches, hkept⟩ := Prod.mk.inj hfacts
  exact ⟨p, m, hp, hmatches, hm, hout, hkept⟩

end SkipRules
end Recast
