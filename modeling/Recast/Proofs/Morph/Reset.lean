import Recast.Proofs.Morph.Index
import Recast.Proofs.Stream.Outcome

/-!
# Reset — programs that have been cleared

A record leaves its traces in the memories of functions, in what collectors hold and in the entities
that are open, also if an event has been refused in the middle of it.  At the start of the next
record all of them are cleared in their places.  Two states are the *same* if no function, no
collector and no path can tell them apart: `Morph.Same`.  Steps keep this relation
(`Morph.step_same`), and clearing brings any two states into it (`Morph.same_reset`).  The main
statement is `Morph.replies_restart`: what comes behind the start of a record is answered as if
nothing had come before.
-/

namespace Recast

/-! ## Functions -/

namespace Function

/-- Two memories that a function cannot tell apart: the counter of one that counts, and the values
seen of one that looks for new ones. -/
def Same (f : Function) (m n : Memory) : Prop :=
  match f with
  | .occurrence _ => m.count = n.count
  | .unique => m.seen = n.seen
  | _ => True

/-- Memories that cannot be told apart give the same answer, and still cannot be told apart behind
it. -/
theorem apply_same {f : Function} {m n : Memory} (value : String) : f.Same m n →
    (f.apply m value).1 = (f.apply n value).1 ∧
      f.Same (f.apply m value).2 (f.apply n value).2 := by
  intro h
  cases f with
  | occurrence only =>
      have hcount : m.count = n.count := h
      simp only [apply, Same, hcount, and_self]
  | unique =>
      have hseen : m.seen = n.seen := h
      by_cases hmem : value ∈ n.seen <;> simp [apply, Same, hseen, hmem]
  | extract p format => cases format <;> exact ⟨rfl, trivial⟩
  | _ => exact ⟨rfl, trivial⟩

/-- Memories that have been cleared cannot be told apart. -/
theorem reset_same (f : Function) (m n : Memory) : f.Same (f.reset m) (f.reset n) := by
  cases f <;> first | exact trivial | exact rfl

end Function

namespace Morph

/-- Memories of functions one behind the other that these cannot tell apart. -/
def SameAll : List Function → List Function.Memory → List Function.Memory → Prop
  | [], _, _ => True
  | f :: fs, ms, ns => f.Same (ms.headD .fresh) (ns.headD .fresh) ∧ SameAll fs ms.tail ns.tail

theorem applyAll_same {fs : List Function} {ms ns : List Function.Memory} (value : String) :
    SameAll fs ms ns → (applyAll fs ms value).1 = (applyAll fs ns value).1 ∧
      SameAll fs (applyAll fs ms value).2 (applyAll fs ns value).2 := by
  intro h
  induction fs generalizing ms ns value with
  | nil => exact ⟨rfl, trivial⟩
  | cons f fs ih =>
      rcases h with ⟨hfirst, hrest⟩
      rcases Function.apply_same value hfirst with ⟨hanswer, hmemory⟩
      simp only [applyAll]
      cases hm : f.apply (ms.headD .fresh) value with
      | mk answer m =>
          cases hn : f.apply (ns.headD .fresh) value with
          | mk answer' n =>
              rw [hm, hn] at hanswer hmemory
              obtain rfl : answer = answer' := hanswer
              -- the next function gets the answer of this one, or nothing
              cases answer with
              | none => exact ⟨rfl, hmemory, hrest⟩
              | some next => exact ⟨(ih next hrest).1, hmemory, (ih next hrest).2⟩

theorem passPipe_same {p : Pipe} {ms ns : List Function.Memory} (value : String) :
    SameAll p.functions ms ns → (passPipe p ms value).1 = (passPipe p ns value).1 ∧
      SameAll p.functions (passPipe p ms value).2 (passPipe p ns value).2 := by
  intro h
  unfold passPipe
  cases p.filter with
  | none => exact applyAll_same value h
  | some f =>
      simp only
      split
      · exact applyAll_same value h
      · exact ⟨rfl, h⟩

/-- After a reset no memories can be told apart. -/
theorem resetAll_same (fs : List Function) (ms ns : List Function.Memory) :
    SameAll fs (resetAll fs ms) (resetAll fs ns) := by
  induction fs generalizing ms ns with
  | nil => exact trivial
  | cons f fs ih => exact ⟨f.reset_same _ _, ih ms.tail ns.tail⟩

/-! ## States -/

/-- Two states that a program cannot tell apart. -/
structure Same (m : Morph) (s t : State) : Prop where
  size : s.memories.length = t.memories.length
  memories : ∀ (i : Nat) (p : Pipe), m.pipes[i]? = some p →
    SameAll p.functions (s.memories.getD i []) (t.memories.getD i [])
  gathered : s.gathered = t.gathered
  entities : s.entities = t.entities

variable {m : Morph}

/-- A state that has been cleared does not show what it has been before. -/
theorem same_reset (s t : State) : m.Same (m.reset s) (m.reset t) where
  size := by simp [reset]
  memories := by
    intro i p hp
    have hget : ∀ s : State, (m.reset s).memories.getD i [] =
        resetAll p.functions (s.memories.getD i []) := by
      intro s
      simp [reset, List.getD_eq_getElem?_getD, hp]
    rw [hget, hget]
    exact resetAll_same p.functions _ _
  gathered := rfl
  entities := rfl

/-- New memories for one pipe. -/
theorem Same.setMemories {s t : State} {i : Nat} {p : Pipe} {ms ns : List Function.Memory}
    (h : m.Same s t) (hp : m.pipes[i]? = some p) (hsame : SameAll p.functions ms ns) :
    m.Same { s with memories := s.memories.set i ms }
      { t with memories := t.memories.set i ns } where
  size := by simp [h.size]
  memories := by
    intro j q hq
    -- only the memories of this pipe change
    by_cases hij : i = j
    · subst hij
      obtain rfl : p = q := Option.some.inj (hp.symm.trans hq)
      by_cases hlt : i < t.memories.length
      · have hlt' : i < s.memories.length := h.size ▸ hlt
        simpa [List.getD_eq_getElem?_getD, hlt, hlt'] using hsame
      · have hlt' : ¬ i < s.memories.length := h.size ▸ hlt
        rw [List.set_eq_of_length_le (Nat.not_lt.1 hlt),
          List.set_eq_of_length_le (Nat.not_lt.1 hlt')]
        exact h.memories i p hp
    · -- the other places are kept
      have hkeep : ∀ (xs : List (List Function.Memory)) x, (xs.set i x).getD j [] = xs.getD j [] :=
        fun xs x => by simp [List.getD_eq_getElem?_getD, hij]
      rw [hkeep, hkeep]
      exact h.memories j q hq
  gathered := h.gathered
  entities := h.entities

/-- A pipe that listens is one of the program. -/
theorem mem_pipes_of_listener {path : String} {p : Pipe × Nat} :
    p ∈ m.listeners path → m.pipes[p.2]? = some p.1 := by
  intro h
  rw [listeners_eq] at h
  exact List.mem_zipIdx_iff_getElem?.1 (List.mem_filter.1 h).1

/-! ## Steps -/

/-- A way to emit values that does not show what states that are the same hide. -/
def EmitsSame (m : Morph) (emit : String → String → State → Outcome State) : Prop :=
  ∀ name value s t, m.Same s t → Outcome.Alike m.Same (emit name value s) (emit name value t)

theorem runPipe_same {emit : String → String → State → Outcome State} {p : Pipe × Nat}
    {s t : State} (hemit : m.EmitsSame emit) (hp : m.pipes[p.2]? = some p.1) (value : String)
    (h : m.Same s t) :
    Outcome.Alike m.Same (runPipe m emit value p s) (runPipe m emit value p t) := by
  rcases passPipe_same value (h.memories p.2 p.1 hp) with ⟨hanswer, hmemories⟩
  simp only [runPipe]
  cases hs : passPipe p.1 (s.memories.getD p.2 []) value with
  | mk answer ms =>
      cases ht : passPipe p.1 (t.memories.getD p.2 []) value with
      | mk answer' ns =>
          rw [hs, ht] at hanswer hmemories
          obtain rfl : answer = answer' := hanswer
          have hset := h.setMemories hp hmemories
          cases answer with
          | none => exact .quiet hset
          | some v =>
              cases p.1.output with
              | emit name => exact hemit name v _ _ hset
              | gather place input =>
                  simp only
                  cases m.collectors[place]? with
                  | none => exact .quiet hset
                  | some c =>
                      -- what the collectors hold is equal, so they answer alike
                      simp only [h.gathered]
                      have hheld : ∀ held, m.Same
                          ⟨s.memories.set p.2 ms, t.gathered.set place held, s.entities⟩
                          ⟨t.memories.set p.2 ns, t.gathered.set place held, t.entities⟩ :=
                        fun _ => ⟨hset.size, hset.memories, rfl, hset.entities⟩
                      cases (c.collector.receive (t.gathered.getD place []) input v).1 with
                      | none => exact .quiet (hheld _)
                      | some w => exact hemit c.name w _ _ (hheld _)

theorem emitTo_same {dispatch : String → String → State → Outcome State}
    (h : m.EmitsSame dispatch) : m.EmitsSame (emitTo dispatch) := by
  intro name value s t hst
  unfold emitTo
  split
  · exact h name value s t hst
  · exact .hand hst _

theorem each_same {α : Type} {f : α → State → Outcome State} {as : List α}
    (hf : ∀ a ∈ as, ∀ s t, m.Same s t → Outcome.Alike m.Same (f a s) (f a t)) {s t : State}
    (h : m.Same s t) : Outcome.Alike m.Same (Outcome.each f as s) (Outcome.each f as t) := by
  induction as generalizing s t with
  | nil => exact .quiet h
  | cons a rest ih =>
      rcases List.forall_mem_cons.1 hf with ⟨hfirst, hrest⟩
      exact (hfirst s t h).andThen fun _ _ h' => ih hrest h'

/-- What is dispatched does the same in states that are the same, however often variables feed
variables. -/
theorem dispatch_same (levels : Nat) : m.EmitsSame (dispatch m levels) := by
  -- by induction on the number of times that variables may still feed variables
  induction levels with
  | zero => exact fun path _ _ _ h => .refuse h _
  | succ levels ih =>
      intro path value s t h
      refine each_same (fun p hp s t hst => ?_) h
      exact runPipe_same (emitTo_same ih) (mem_pipes_of_listener hp) value hst

theorem flush_same (c : NamedCollector × Nat) {s t : State} (h : m.Same s t) :
    Outcome.Alike m.Same (flush m c s) (flush m c t) := by
  simp only [flush, h.gathered]
  cases c.1.collector.flush (t.gathered.getD c.2 []) with
  | none => exact .quiet h
  | some v => exact emitTo_same (dispatch_same Refusal.maxDepth) c.1.name v s t h

/-- One event: what is handed on and why it is refused is the same, and so are the states behind
it. -/
theorem step_same (e : Event) {s t : State} (h : m.Same s t) :
    Outcome.Alike m.Same (m.step e s) (m.step e t) := by
  cases e with
  | startRecord id => exact .hand (same_reset s t) _
  | endRecord =>
      -- at the end of a record the collectors hold the same
      have hflush : Outcome.Alike m.Same (Outcome.each (flush m) m.collectors.zipIdx s)
          (Outcome.each (flush m) m.collectors.zipIdx t) :=
        each_same (fun c _ _ _ h => flush_same c h) h
      exact hflush.andThen fun s' t' _ => .hand (same_reset s' t') _
  | startEntity name =>
      exact .quiet ⟨h.size, h.memories, h.gathered, by simp only [h.entities]⟩
  | endEntity =>
      simp only [step, h.entities]
      split
      · exact .refuse h _
      · exact .quiet ⟨h.size, h.memories, h.gathered, rfl⟩
  | literal name value =>
      simp only [step, h.entities]
      exact dispatch_same _ _ value s t h

/-! ## Histories -/

/-- What is told of an event: what is handed on, and why it is refused if it is. -/
abbrev Reply := List Event × Option Refusal

/-- The replies to events one after the other; behind one that is refused the next comes all the
same. -/
def replies (m : Morph) : List Event → State → List Reply
  | [], _ => []
  | e :: rest, s => ((m.step e s).out, (m.step e s).refusal) :: m.replies rest (m.step e s).state

def behind (m : Morph) (es : List Event) (s : State) : State :=
  es.foldl (fun s e => (m.step e s).state) s

theorem replies_append (es more : List Event) (s : State) :
    m.replies (es ++ more) s = m.replies es s ++ m.replies more (m.behind es s) := by
  induction es generalizing s with
  | nil => rfl
  | cons e rest ih => exact congrArg (_ :: ·) (ih (m.step e s).state)

/-- States that are the same give the same replies for ever. -/
theorem replies_same (es : List Event) {s t : State} (h : m.Same s t) :
    m.replies es s = m.replies es t := by
  induction es generalizing s t with
  | nil => rfl
  | cons e rest ih =>
      have hstep := step_same e h
      simp only [replies, hstep.out, hstep.refusal, ih hstep.state]

/-- The start of a record forgets everything: whatever has come before, in whatever order and with
whatever refusals, the replies from there on are those of a program to which nothing has come. -/
theorem replies_restart (m : Morph) (history es : List Event) (id : String) :
    m.replies (history ++ .startRecord id :: es) m.initial =
      m.replies history m.initial ++ m.replies (.startRecord id :: es) m.initial := by
  rw [replies_append]
  -- the first step brings both states together
  have hrest := replies_same es (same_reset (m := m) (m.behind history m.initial) m.initial)
  exact congrArg (fun rs => m.replies history m.initial ++ ([.startRecord id], none) :: rs) hrest

end Morph
end Recast
