import Recast.Pattern.Matcher

/-!
# Search — what a search finds

The instructions of a program lead from one to another, some of them past a character of the text.
A search follows all ways at once and drops a way where another one has been, so it is not obvious
that it misses nothing.  It does find a match just in case that the instructions lead to one from
some place of the text on: `Pattern.matches_iff`.

* `Pattern.Leads` — the instructions lead to a match;
* `Pattern.Finds` — they do so from some place on;
* `Pattern.Front.Step` — what one step of following a thread does, for each instruction;
* `Pattern.Front.Follows` — what following threads at one place comes to.
-/

namespace Recast
namespace Pattern

/-! ## Ways through a program -/

/-- From an instruction, at a place of a text with the character `before` in front of it, the
instructions lead to a match. -/
inductive Leads (code : Array Instruction) : Nat → Option Char → List Char → Prop
  | accept {i : Nat} {before : Option Char} {cs : List Char} (h : code[i]? = some .accept) :
      Leads code i before cs
  | take {i next : Nat} {s : CharSet} {before : Option Char} {c : Char} {cs : List Char}
      (h : code[i]? = some (.take s next)) (hc : s.holds c.toNat = true)
      (rest : Leads code next (some c) cs) : Leads code i before (c :: cs)
  | check {i next : Nat} {a : Assertion} {before : Option Char} {cs : List Char}
      (h : code[i]? = some (.check a next)) (ha : a.holds before cs.head? = true)
      (rest : Leads code next before cs) : Leads code i before cs
  | note {i next slot : Nat} {before : Option Char} {cs : List Char}
      (h : code[i]? = some (.note slot next)) (rest : Leads code next before cs) :
      Leads code i before cs
  | first {i l r : Nat} {before : Option Char} {cs : List Char}
      (h : code[i]? = some (.split l r)) (rest : Leads code l before cs) : Leads code i before cs
  | second {i l r : Nat} {before : Option Char} {cs : List Char}
      (h : code[i]? = some (.split l r)) (rest : Leads code r before cs) : Leads code i before cs

section Instructions

variable {code : Array Instruction} {i next slot l r : Nat} {s : CharSet} {a : Assertion}
  {before : Option Char} {cs : List Char}

/-- An instruction that takes a character leads to a match if the next character is in its set and
the rest of the text leads on. -/
theorem leads_take (h : code[i]? = some (.take s next)) :
    Leads code i before cs ↔
      ∃ c rest, cs = c :: rest ∧ s.holds c.toNat = true ∧ Leads code next (some c) rest := by
  constructor
  · intro hl
    cases hl with
    | @take _ _ _ _ c rest h' hc hrest =>
        rw [h, Option.some.injEq, Instruction.take.injEq] at h'
        obtain ⟨rfl, rfl⟩ := h'
        exact ⟨c, rest, rfl, hc, hrest⟩
    | accept h' | check h' _ _ | note h' _ | first h' _ | second h' _ =>
        rw [h] at h'
        cases h'
  · rintro ⟨c, rest, rfl, hc, hrest⟩
    exact .take h hc hrest

/-- A condition on neighbours leads to a match where it holds. -/
theorem leads_check (h : code[i]? = some (.check a next)) :
    Leads code i before cs ↔ a.holds before cs.head? = true ∧ Leads code next before cs := by
  constructor
  · intro hl
    cases hl with
    | check h' ha hrest =>
        rw [h, Option.some.injEq, Instruction.check.injEq] at h'
        obtain ⟨rfl, rfl⟩ := h'
        exact ⟨ha, hrest⟩
    | accept h' | take h' _ _ | note h' _ | first h' _ | second h' _ =>
        rw [h] at h'
        cases h'
  · rintro ⟨ha, hrest⟩
    exact .check h ha hrest

/-- Noting a position does not matter for whether there is a match. -/
theorem leads_note (h : code[i]? = some (.note slot next)) :
    Leads code i before cs ↔ Leads code next before cs := by
  refine ⟨fun hl => ?_, .note h⟩
  cases hl with
  | note h' hrest =>
      rw [h, Option.some.injEq, Instruction.note.injEq] at h'
      obtain ⟨rfl, rfl⟩ := h'
      exact hrest
  | accept h' | take h' _ _ | check h' _ _ | first h' _ | second h' _ =>
      rw [h] at h'
      cases h'

/-- A choice leads to a match if one of its ways does. -/
theorem leads_split (h : code[i]? = some (.split l r)) :
    Leads code i before cs ↔ Leads code l before cs ∨ Leads code r before cs := by
  constructor
  · intro hl
    -- each way of leading names the instruction it goes by, and there is only the split here
    cases hl with
    | first h' hrest =>
        rw [h, Option.some.injEq, Instruction.split.injEq] at h'
        obtain ⟨rfl, rfl⟩ := h'
        exact .inl hrest
    | second h' hrest =>
        rw [h, Option.some.injEq, Instruction.split.injEq] at h'
        obtain ⟨rfl, rfl⟩ := h'
        exact .inr hrest
    | accept h' | take h' _ _ | check h' _ _ | note h' _ =>
        rw [h] at h'
        cases h'
  · rintro (hl | hr)
    · exact .first h hl
    · exact .second h hr

end Instructions

/-- The instructions of a program lead to a match from some place of a text on. -/
inductive Finds (p : Program) : Option Char → List Char → Prop
  | here {before : Option Char} {cs : List Char} (h : Leads p.code p.start before cs) :
      Finds p before cs
  | later {before : Option Char} {c : Char} {cs : List Char} (h : Finds p (some c) cs) :
      Finds p before (c :: cs)

theorem finds_nil {p : Program} {before : Option Char} :
    Finds p before [] ↔ Leads p.code p.start before [] := by
  refine ⟨fun h => ?_, .here⟩
  cases h with
  | here h => exact h

/-- A match starts here or behind the next character. -/
theorem finds_cons {p : Program} {before : Option Char} {c : Char} {cs : List Char} :
    Finds p before (c :: cs) ↔ Leads p.code p.start before (c :: cs) ∨ Finds p (some c) cs := by
  constructor
  · intro h
    cases h with
    | here h => exact .inl h
    | later h => exact .inr h
  · rintro (h | h)
    · exact .here h
    · exact .later h

variable {p : Program} {here : Place}

theorem getD_of_getElem? {code : Array Instruction} {i : Nat} {x : Instruction}
    (h : code[i]? = some x) : code.getD i .accept = x := by
  rw [Array.getD_eq_getD_getElem?, h, Option.getD_some]

theorem getElem?_of_getD {code : Array Instruction} {i : Nat} {x : Instruction}
    (hi : i < code.size) (h : code.getD i .accept = x) : code[i]? = some x := by
  rw [Array.getD_eq_getD_getElem?, Array.getElem?_eq_getElem hi, Option.getD_some] at h
  rw [Array.getElem?_eq_getElem hi, h]

/-! ## One place -/

namespace Front

/-- An instruction has been met; there are none behind the end of the program to be met. -/
def Met (x : Front) (i : Nat) : Prop :=
  x.met.getD i true = true

def unmet (x : Front) : Nat :=
  x.met.count false

def meet (x : Front) (i : Nat) : Front :=
  { x with met := x.met.setIfInBounds i true }

variable {x : Front} {i k : Nat}

/-- After meeting an instruction, it has been met, and else those that had been before. -/
theorem met_meet : (x.meet k).Met i ↔ i = k ∨ x.Met i := by
  unfold Met meet
  rw [Array.getD_eq_getD_getElem?, Array.getD_eq_getD_getElem?, Array.getElem?_setIfInBounds]
  by_cases hki : k = i
  · subst hki
    by_cases hk : k < x.met.size
    · simp [hk]
    · simp [hk]
  · simp [hki, Ne.symm hki]

/-- Meeting an instruction for the first time leaves one fewer. -/
theorem unmet_meet (h : ¬ x.Met k) : (x.meet k).unmet + 1 = x.unmet := by
  unfold Met at h
  -- an instruction beyond the program counts as met
  have hk : k < x.met.size := by
    refine Nat.lt_of_not_le fun hle => h ?_
    rw [Array.getD_eq_getD_getElem?, Array.getElem?_eq_none hle]
    rfl
  have hfalse : x.met[k] = false := by
    rw [Array.getD_eq_getD_getElem?, Array.getElem?_eq_getElem hk] at h
    simpa using h
  have hpos : 0 < x.met.count false := Array.count_pos_iff.2 (hfalse ▸ Array.getElem_mem hk)
  unfold unmet meet
  rw [Array.setIfInBounds_def, dif_pos hk, Array.count_set]
  simp [hfalse]
  omega

end Front

/-- What following threads at one place comes to: an instruction that takes a character or accepts is
where a thread waits, and any other one that has been met leads to instructions that have. -/
def Front.Settled (here : Place) (x : Front) (i : Nat) : Instruction → Prop
  | .take .. | .accept => ∃ t ∈ x.waiting, t.at_ = i
  | .check a next => a.holds here.before here.after = true → x.Met next
  | .note _ next => x.Met next
  | .split l r => x.Met l ∧ x.Met r

def Front.Settles (p : Program) (here : Place) (x : Front) (i : Nat) : Prop :=
  x.Settled here i (p.code.getD i .accept)

/-- From one front to a later one nothing is lost, the threads that have arrived have been followed,
and whatever has been met meanwhile is settled. -/
structure Front.Follows (p : Program) (here : Place) (x : Front) (threads : List Thread)
    (y : Front) : Prop where
  met : ∀ i, x.Met i → y.Met i
  waiting : x.waiting ⊆ y.waiting
  arrived : ∀ t ∈ threads, y.Met t.at_
  settled : ∀ i, y.Met i → x.Met i ∨ y.Settles p here i

variable {x y : Front} {t : Thread} {rest : List Thread} {i : Nat}

theorem follow_nil (n : Nat) : follow p here n [] x = x := by
  cases n <;> rfl

/-- An instruction that has been met is not followed again. -/
theorem follow_met {n : Nat} (h : x.Met t.at_) :
    follow p here (n + 1) (t :: rest) x = follow p here n rest x := by
  unfold Front.Met at h
  rw [follow, if_pos h]

/-- A thread waits at an instruction that accepts or takes a character. -/
def Waits (p : Program) (i : Nat) : Prop :=
  p.code[i]? = some .accept ∨ ∃ s next, p.code[i]? = some (.take s next)

theorem Front.lt_size (h : ¬ x.Met i) : i < x.met.size := by
  refine Nat.lt_of_not_le fun hle => h ?_
  unfold Met
  rw [Array.getD_eq_getD_getElem?, Array.getElem?_eq_none hle]
  rfl

/-! ## One step -/

/-- Following a thread for one step, when it comes to an instruction that has not been met: the
threads that take its place, and the front that is left. -/
inductive Front.Step (p : Program) (here : Place) (x : Front) (t : Thread) :
    List Thread → Front → Prop
  | accept (h : p.code.getD t.at_ .accept = .accept) :
      Step p here x t [] { x.meet t.at_ with waiting := t :: x.waiting }
  | take {s : CharSet} {next : Nat} (h : p.code.getD t.at_ .accept = .take s next) :
      Step p here x t [] { x.meet t.at_ with waiting := t :: x.waiting }
  | pass {a : Assertion} {next : Nat} (h : p.code.getD t.at_ .accept = .check a next)
      (ha : a.holds here.before here.after = true) :
      Step p here x t [{ t with at_ := next }] (x.meet t.at_)
  | stop {a : Assertion} {next : Nat} (h : p.code.getD t.at_ .accept = .check a next)
      (ha : ¬ a.holds here.before here.after = true) : Step p here x t [] (x.meet t.at_)
  | note {slot next : Nat} (h : p.code.getD t.at_ .accept = .note slot next) :
      Step p here x t [⟨next, t.slots.setIfInBounds slot (some here.index)⟩] (x.meet t.at_)
  | split {l r : Nat} (h : p.code.getD t.at_ .accept = .split l r) :
      Step p here x t [{ t with at_ := l }, { t with at_ := r }] (x.meet t.at_)

variable (p here) in
/-- A thread that comes to a new instruction is followed by one step, and then the threads that take
its place are followed in front of the others. -/
theorem exists_step (hmet : ¬ x.Met t.at_) :
    ∃ more x', Front.Step p here x t more x' ∧
      ∀ n rest, follow p here (n + 1) (t :: rest) x = follow p here n (more ++ rest) x' := by
  have hnew : ¬ x.met.getD t.at_ true = true := hmet
  -- one case for each instruction: the step is named, and the search takes this very step
  cases hcode : p.code.getD t.at_ .accept with
  | accept =>
      refine ⟨_, _, .accept hcode, fun n rest => ?_⟩
      rw [follow, if_neg hnew]
      simp only [hcode]
      rfl
  | take s next =>
      refine ⟨_, _, .take hcode, fun n rest => ?_⟩
      rw [follow, if_neg hnew]
      simp only [hcode]
      rfl
  | check a next =>
      by_cases ha : a.holds here.before here.after = true
      · refine ⟨_, _, .pass hcode ha, fun n rest => ?_⟩
        rw [follow, if_neg hnew]
        simp only [hcode, if_pos ha]
        rfl
      · refine ⟨_, _, .stop hcode ha, fun n rest => ?_⟩
        rw [follow, if_neg hnew]
        simp only [hcode, if_neg ha]
        rfl
  | note slot next =>
      refine ⟨_, _, .note hcode, fun n rest => ?_⟩
      rw [follow, if_neg hnew]
      simp only [hcode]
      rfl
  | split l r =>
      refine ⟨_, _, .split hcode, fun n rest => ?_⟩
      rw [follow, if_neg hnew]
      simp only [hcode]
      rfl

namespace Front.Step

variable {more : List Thread} {x' : Front} {u : Thread} {cs : List Char}

theorem met_eq (hs : Front.Step p here x t more x') : x'.met = (x.meet t.at_).met := by
  cases hs <;> rfl

/-- A step meets one instruction more. -/
theorem met_iff (hs : Front.Step p here x t more x') : x'.Met i ↔ i = t.at_ ∨ x.Met i := by
  rw [← Front.met_meet]
  unfold Front.Met
  rw [hs.met_eq]

/-- A step meets one instruction that has not been met. -/
theorem unmet_eq (hs : Front.Step p here x t more x') (hmet : ¬ x.Met t.at_) :
    x'.unmet + 1 = x.unmet := by
  have hsame : x'.unmet = (x.meet t.at_).unmet := congrArg (Array.count false) hs.met_eq
  rw [hsame]
  exact Front.unmet_meet hmet

theorem size_eq (hs : Front.Step p here x t more x') : x'.met.size = x.met.size := by
  rw [hs.met_eq]
  exact Array.size_setIfInBounds

/-- One thread becomes two at most. -/
theorem length_le (hs : Front.Step p here x t more x') : more.length ≤ 2 := by
  cases hs <;> simp

/-- A step takes no waiting thread away. -/
theorem waiting_subset (hs : Front.Step p here x t more x') : x.waiting ⊆ x'.waiting := by
  cases hs with
  | accept _ | take _ => exact List.subset_cons_self _ _
  | pass _ _ | stop _ _ | note _ | split _ => exact List.Subset.refl _

/-- The instruction of a step is settled as soon as its thread waits and the threads that have taken
its place have met theirs. -/
theorem settles (hs : Front.Step p here x t more x') (hwaiting : x'.waiting ⊆ y.waiting)
    (hmore : ∀ u ∈ more, y.Met u.at_) : y.Settles p here t.at_ := by
  unfold Front.Settles
  cases hs with
  | accept h | take h =>
      rw [h]
      exact ⟨t, hwaiting List.mem_cons_self, rfl⟩
  | pass h ha =>
      rw [h]
      intro _
      exact hmore _ List.mem_cons_self
  | stop h ha =>
      rw [h]
      intro hholds
      exact absurd hholds ha
  | note h =>
      rw [h]
      exact hmore _ List.mem_cons_self
  | split h =>
      rw [h]
      constructor
      · exact hmore _ List.mem_cons_self
      · exact hmore _ (List.mem_cons_of_mem _ List.mem_cons_self)

/-- Nothing comes to wait in a step but its thread, and this at a proper place. -/
theorem waits_of_mem (hs : Front.Step p here x t more x') (hlt : t.at_ < p.code.size)
    (hu : u ∈ x'.waiting) : u ∈ x.waiting ∨ u = t ∧ Waits p t.at_ := by
  cases hs with
  | accept h =>
      have hwaits : Waits p t.at_ := .inl (getElem?_of_getD hlt h)
      exact (List.mem_cons.1 hu).symm.imp_right fun htu => ⟨htu, hwaits⟩
  | @take s next h =>
      have hwaits : Waits p t.at_ := .inr ⟨s, next, getElem?_of_getD hlt h⟩
      exact (List.mem_cons.1 hu).symm.imp_right fun htu => ⟨htu, hwaits⟩
  | pass _ _ | stop _ _ | note _ | split _ => exact .inl hu

/-- The threads that take the place of another one lead nowhere where this one does not. -/
theorem leads (hs : Front.Step p here x t more x') (hlt : t.at_ < p.code.size)
    (hcs : cs.head? = here.after) (hu : u ∈ more) (hleads : Leads p.code u.at_ here.before cs) :
    Leads p.code t.at_ here.before cs := by
  -- what did not go on has left no thread behind
  cases hs with
  | accept _ | take _ | stop _ _ => exact absurd hu List.not_mem_nil
  | pass h ha =>
      obtain rfl := List.mem_singleton.1 hu
      have hholds := ha
      rw [← hcs] at hholds
      exact .check (getElem?_of_getD hlt h) hholds hleads
  | note h =>
      obtain rfl := List.mem_singleton.1 hu
      exact .note (getElem?_of_getD hlt h) hleads
  | split h =>
      rcases List.mem_cons.1 hu with rfl | hsecond
      · exact .first (getElem?_of_getD hlt h) hleads
      · obtain rfl := List.mem_singleton.1 hsecond
        exact .second (getElem?_of_getD hlt h) hleads

end Front.Step

/-! ## All steps at one place -/

/-- What following comes to after a step, it comes to with the step in front. -/
theorem Front.Follows.of_step {more : List Thread} {x' : Front}
    (hs : Front.Step p here x t more x') (h : Follows p here x' (more ++ rest) y) :
    Follows p here x (t :: rest) y where
  met := by
    intro i hi
    exact h.met i (hs.met_iff.2 (.inr hi))
  waiting := by
    -- threads that wait once go on waiting
    intro u hu
    exact h.waiting (hs.waiting_subset hu)
  arrived := by
    intro u hu
    rcases List.mem_cons.1 hu with rfl | hrest
    · exact h.met _ (hs.met_iff.2 (.inl rfl))
    · exact h.arrived u (List.mem_append_right _ hrest)
  settled := by
    intro i hi
    -- an instruction that is met by now was met before, or it is the one this step has met
    rcases h.settled i hi with hx' | hsettles
    · rcases hs.met_iff.1 hx' with rfl | hx
      · have hmore : ∀ u ∈ more, y.Met u.at_ := fun u hu =>
          h.arrived u (List.mem_append_left _ hu)
        exact .inr (hs.settles h.waiting hmore)
      · exact .inl hx
    · exact .inr hsettles

theorem Front.Follows.refl (x : Front) : Follows p here x [] x where
  met := fun _ h => h
  waiting := List.Subset.refl _
  arrived := by simp
  settled := fun _ h => .inl h

/-- Every thread is followed to the end, if the number of steps allows for two threads for each
instruction that has not been met. -/
theorem follows_follow (n : Nat) {threads : List Thread} {x : Front}
    (hn : threads.length + 2 * x.unmet ≤ n) :
    Front.Follows p here x threads (follow p here n threads x) := by
  -- a step costs one unit of fuel, and every instruction is met once
  induction n generalizing threads x with
  | zero =>
      obtain rfl : threads = [] := List.length_eq_zero_iff.1 (by omega)
      exact .refl x
  | succ n ih =>
      cases threads with
      | nil =>
          rw [follow_nil]
          exact .refl x
      | cons t rest =>
          rw [List.length_cons] at hn
          by_cases hmet : x.Met t.at_
          case pos =>
            rw [follow_met hmet]
            -- where the instruction is met already, the thread is dropped
            have hrest : Front.Follows p here x rest (follow p here n rest x) := ih (by omega)
            have harrived : ∀ u ∈ t :: rest, (follow p here n rest x).Met u.at_ :=
              List.forall_mem_cons.2 ⟨hrest.met _ hmet, hrest.arrived⟩
            exact ⟨hrest.met, hrest.waiting, harrived, hrest.settled⟩
          case neg =>
            obtain ⟨more, x', hs, hfollow⟩ := exists_step p here hmet
            -- a step leaves at most two threads more, and one instruction less to be met
            have hlength := hs.length_le
            have hunmet := hs.unmet_eq hmet
            have hbound : (more ++ rest).length + 2 * x'.unmet ≤ n := by
              rw [List.length_append]
              omega
            rw [hfollow]
            exact .of_step hs (ih hbound)

/-- A thread that has come to wait waits properly, and where it leads to a match one of the threads
that were followed does. -/
theorem waits_of_mem_follow {cs : List Char} (hcs : cs.head? = here.after) (n : Nat)
    {threads : List Thread} {x : Front} (hsize : x.met.size = p.code.size) {u : Thread}
    (hu : u ∈ (follow p here n threads x).waiting) :
    u ∈ x.waiting ∨ Waits p u.at_ ∧ (Leads p.code u.at_ here.before cs →
      ∃ t ∈ threads, Leads p.code t.at_ here.before cs) := by
  induction n generalizing threads x with
  | zero => exact .inl hu
  | succ n ih =>
      cases threads with
      | nil =>
          rw [follow_nil] at hu
          exact .inl hu
      | cons t rest =>
          by_cases hmet : x.Met t.at_
          case pos =>
            rw [follow_met hmet] at hu
            rcases ih hsize hu with hold | ⟨hwaits, hback⟩
            · exact .inl hold
            · refine .inr ⟨hwaits, ?_⟩
              intro hleads
              obtain ⟨t', ht', hleads'⟩ := hback hleads
              exact ⟨t', List.mem_cons_of_mem _ ht', hleads'⟩
          case neg =>
            have hlt : t.at_ < p.code.size := hsize ▸ Front.lt_size hmet
            obtain ⟨more, x', hs, hfollow⟩ := exists_step p here hmet
            rw [hfollow] at hu
            rcases ih (hs.size_eq.trans hsize) hu with hold | ⟨hwaits, hback⟩
            · rcases hs.waits_of_mem hlt hold with hx | ⟨rfl, hwaits⟩
              · exact .inl hx
              · exact .inr ⟨hwaits, fun hleads => ⟨u, List.mem_cons_self, hleads⟩⟩
            · refine .inr ⟨hwaits, ?_⟩
              intro hleads
              obtain ⟨t', ht', hleads'⟩ := hback hleads
              -- a thread that took the place of `t` leads back to it
              rcases List.mem_append.1 ht' with hmore | hrest
              · exact ⟨t, List.mem_cons_self, hs.leads hlt hcs hmore hleads'⟩
              · exact ⟨t', List.mem_cons_of_mem _ hrest, hleads'⟩

/-! ## From place to place -/

variable {before : Option Char} {cs : List Char}

/-- Whatever has been met is settled, if nothing had been met at first. -/
theorem Front.Follows.settled_of_getElem? {threads : List Thread}
    (h : Front.Follows p here x threads y) (hnone : ∀ i < p.code.size, ¬ x.Met i) {i : Nat}
    {instruction : Instruction} (hi : p.code[i]? = some instruction) (hmet : y.Met i) :
    y.Settled here i instruction := by
  have hlt := (Array.getElem?_eq_some_iff.1 hi).1
  rw [← getD_of_getElem? hi]
  exact (h.settled i hmet).resolve_left (hnone i hlt)

/-- An instruction that has been met and leads to a match does so through one where a thread
waits, when all that has been met is settled. -/
theorem exists_waiting {i : Nat} (hbefore : here.before = before) (hcs : cs.head? = here.after)
    (hsettled : ∀ {i instruction}, p.code[i]? = some instruction → x.Met i →
      x.Settled here i instruction)
    (h : Leads p.code i before cs) (hmet : x.Met i) :
    ∃ t ∈ x.waiting, Leads p.code t.at_ before cs := by
  -- by induction on the way that leads on: it ends at a thread that waits, and is settled before
  induction h with
  | accept hi =>
      obtain ⟨t, ht, rfl⟩ := hsettled hi hmet
      exact ⟨t, ht, .accept hi⟩
  | take hi hc rest ih =>
      obtain ⟨t, ht, rfl⟩ := hsettled hi hmet
      exact ⟨t, ht, .take hi hc rest⟩
  | check hi ha rest ih =>
      rw [← hbefore, hcs] at ha
      exact ih hbefore hcs (hsettled hi hmet ha)
  | note hi rest ih => exact ih hbefore hcs (hsettled hi hmet)
  | first hi rest ih => exact ih hbefore hcs (hsettled hi hmet).1
  | second hi rest ih => exact ih hbefore hcs (hsettled hi hmet).2

/-- Where threads arrive, every one that waits takes a character or accepts. -/
theorem waits_of_mem_arrive {arriving : List Thread} {u : Thread}
    (hu : u ∈ arrive p here arriving) : Waits p u.at_ := by
  obtain ⟨cs, hcs⟩ : ∃ cs : List Char, cs.head? = here.after := by
    cases here.after with
    | none => exact ⟨[], rfl⟩
    | some c => exact ⟨[c], rfl⟩
  rcases waits_of_mem_follow hcs _ (by simp) (List.mem_reverse.1 hu) with h | h
  · exact absurd h List.not_mem_nil
  · exact h.1

/-- Of the threads that arrive at a place one leads to a match just in case that one of those that
come to wait there does. -/
theorem leads_arrive (here : Place) {arriving : List Thread} (hcs : cs.head? = here.after) :
    (∃ u ∈ arrive p here arriving, Leads p.code u.at_ here.before cs) ↔
      ∃ t ∈ arriving, Leads p.code t.at_ here.before cs := by
  constructor
  · rintro ⟨u, hu, hleads⟩
    rcases waits_of_mem_follow hcs _ (by simp) (List.mem_reverse.1 hu) with h | h
    · exact absurd h List.not_mem_nil
    · exact h.2 hleads
  · rintro ⟨t, ht, hleads⟩
    have hunmet : Front.unmet ⟨Array.replicate p.code.size false, []⟩ = p.code.size := by
      simp [Front.unmet]
    have hsteps : arriving.length + 2 * Front.unmet ⟨Array.replicate p.code.size false, []⟩ ≤
        3 * p.code.size + arriving.length + 1 := by
      omega
    have hfollows : Front.Follows p here _ arriving _ := follows_follow _ hsteps
    -- at first nothing has been met
    have hnone : ∀ i < p.code.size, ¬ Front.Met ⟨Array.replicate p.code.size false, []⟩ i := by
      intro i hi h
      unfold Front.Met at h
      rw [Array.getD_eq_getD_getElem?, Array.getElem?_replicate, if_pos hi] at h
      cases h
    obtain ⟨u, hu, hleads'⟩ := exists_waiting rfl hcs (hfollows.settled_of_getElem? hnone) hleads
      (hfollows.arrived t ht)
    exact ⟨u, List.mem_reverse.2 hu, hleads'⟩

/-- Among waiting threads one accepts just in case that the search finds a match there. -/
theorem isSome_advance {c : Option Char} {ts : List Thread} (hw : ∀ t ∈ ts, Waits p t.at_) :
    (advance p c ts).2.isSome = true ↔ ∃ t ∈ ts, p.code[t.at_]? = some .accept := by
  induction ts with
  | nil => simp [advance]
  | cons t rest ih =>
      have hrest := ih fun u hu => hw u (List.mem_cons_of_mem _ hu)
      rcases hw t List.mem_cons_self with h | ⟨s, next, h⟩
      · simp [advance, getD_of_getElem? h, h]
      · rw [advance, getD_of_getElem? h]
        cases c with
        | none => simpa [h] using hrest
        | some c =>
            simp only
            split <;> simpa [h] using hrest

/-- Where no waiting thread accepts, those that go on lead to a match just in case that one of those
that wait does. -/
theorem leads_advance (before : Option Char) {c : Char} {ts : List Thread} (hw : ∀ t ∈ ts, Waits p t.at_)
    (hnone : ∀ t ∈ ts, p.code[t.at_]? ≠ some .accept) :
    (∃ u ∈ (advance p (some c) ts).1, Leads p.code u.at_ (some c) cs) ↔
      ∃ t ∈ ts, Leads p.code t.at_ before (c :: cs) := by
  induction ts with
  | nil => simp [advance]
  | cons t rest ih =>
      have hrest := ih (fun u hu => hw u (List.mem_cons_of_mem _ hu))
        fun u hu => hnone u (List.mem_cons_of_mem _ hu)
      -- a thread that waits takes a character, as none of them accepts
      rcases hw t List.mem_cons_self with h | ⟨s, next, h⟩
      · exact absurd h (hnone t List.mem_cons_self)
      · have hleads : Leads p.code t.at_ before (c :: cs) ↔
            s.holds c.toNat = true ∧ Leads p.code next (some c) cs := by
          rw [leads_take h]
          constructor
          · rintro ⟨d, cs', hcs, hd, hleads⟩
            obtain ⟨rfl, rfl⟩ := List.cons.inj hcs
            exact ⟨hd, hleads⟩
          · exact fun ⟨hc, hleads⟩ => ⟨c, cs, rfl, hc, hleads⟩
        rw [advance, getD_of_getElem? h]
        simp only [List.mem_cons, exists_eq_or_imp, hleads, ← hrest]
        by_cases hc : s.holds c.toNat = true
        · simp [hc]
        · simp [hc]

/-- At the end of a text a waiting thread leads to a match only where it accepts. -/
theorem leads_nil {i : Nat} (hw : Waits p i) :
    Leads p.code i before [] ↔ p.code[i]? = some .accept := by
  refine ⟨fun h => ?_, .accept⟩
  rcases hw with hi | ⟨s, next, hi⟩
  · exact hi
  · obtain ⟨c, rest, hnil, _⟩ := (leads_take hi).1 h
    cases hnil

/-! ## The whole text -/

/-- A match from one of some threads or from a new one. -/
theorem leads_fresh {arriving : List Thread} {slots : Slots} :
    (∃ t ∈ arriving ++ [⟨p.start, slots⟩], Leads p.code t.at_ before cs) ↔
      (∃ t ∈ arriving, Leads p.code t.at_ before cs) ∨ Leads p.code p.start before cs := by
  simp [or_and_right, exists_or]

/-- A search finds a match if it has found one, if a thread that arrives leads to one, or if one
starts at its place or behind it. -/
theorem isSome_searchFrom {index : Nat} {arriving : List Thread} {found : Option Slots} :
    (searchFrom p before index arriving found cs).isSome = true ↔
      found.isSome = true ∨ (∃ t ∈ arriving, Leads p.code t.at_ before cs) ∨
        Finds p before cs := by
  -- by induction on the rest of the text, for every set of threads that arrive
  induction cs generalizing before index arriving found with
  | nil =>
      rw [finds_nil, searchFrom]
      cases found with
      | some m => simp
      | none =>
          simp only [Option.isNone_none, if_true, List.head?_nil, Option.or_none,
            Option.isSome_none, Bool.false_eq_true, false_or]
          rw [isSome_advance fun t ht => waits_of_mem_arrive ht, ← leads_fresh,
            ← leads_arrive ⟨before, none, index⟩ rfl]
          exact exists_congr fun t => and_congr_right fun ht =>
            (leads_nil (waits_of_mem_arrive ht)).symm
  | cons c cs ih =>
      rw [finds_cons, searchFrom]
      cases found with
      | some m =>
          -- a match that has been found is kept, or put away for a better one
          have hfound : ∀ better : Option Slots, (better.or (some m)).isSome = true := by
            intro better
            cases better <;> rfl
          simp only [Option.isNone_some, Bool.false_eq_true, if_false, Option.isSome_some,
            true_or, iff_true]
          split
          · exact hfound _
          · exact ih.2 (.inl (hfound _))
      | none =>
          simp only [Option.isNone_none, if_true, List.head?_cons, Option.or_none,
            Option.isSome_none, Bool.false_eq_true, false_or]
          -- from here on only the threads that wait matter
          rw [← or_assoc, ← leads_fresh, ← leads_arrive ⟨before, some c, index⟩ rfl]
          have hw : ∀ t ∈ arrive p ⟨before, some c, index⟩
              (arriving ++ [⟨p.start, Array.replicate p.slots none⟩]), Waits p t.at_ :=
            fun t ht => waits_of_mem_arrive ht
          generalize arrive p ⟨before, some c, index⟩ _ = waiting at hw ⊢
          by_cases hbetter : (advance p (some c) waiting).2.isSome = true
          · obtain ⟨t, ht, haccept⟩ := (isSome_advance hw).1 hbetter
            refine iff_of_true ?_ (.inl ⟨t, ht, .accept haccept⟩)
            split
            · exact hbetter
            · exact ih.2 (.inl hbetter)
          · have hnone : ∀ t ∈ waiting, p.code[t.at_]? ≠ some .accept :=
              fun t ht h => hbetter ((isSome_advance hw).2 ⟨t, ht, h⟩)
            rw [if_neg (by simp [hbetter]), ih, leads_advance before hw hnone]
            simp [hbetter]

/-- A pattern matches a text just in case that its instructions lead to a match from some place of
the text on. -/
theorem matches_iff (p : Pattern) (s : String) :
    p.matches s = true ↔ Finds p.program none s.toList := by
  unfold «matches» find? search
  rw [isSome_searchFrom]
  simp

end Pattern
end Recast
