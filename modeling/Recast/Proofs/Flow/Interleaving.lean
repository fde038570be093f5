import Recast.Decoder.Standard
import Recast.Proofs.Flow.Life
import Recast.Proofs.Result

/-!
# Interleaving — tasks that do not disturb each other

Whatever the order in which several tasks take their steps, each goes the way that it would go
alone.  `Runner.Sound` says what holds at any time, `Runner.Takes` what one step does,
`Runner.Takes.sound` that it keeps what holds, and `Runner.Sound.follow` that a whole schedule does.
A permit is either left or held by a task, so there are never more tasks at work than permits, and
never do all that are left wait for one.

Main statements: `Runner.tasks_undisturbed`, and `Runner.results_eq_runAll`, by which the results
are those of `Task.runAll`, which takes one task after the other.
-/

namespace Recast

namespace Runner

open Recast.Task

variable {r : Runner σ} {tasks : List Task} {init : σ} {s s' : State σ} {k : Nat}

/-! ## Entries of a place -/

theorem entriesOf_append (k : Nat) (log more : List (Nat × α)) :
    entriesOf k (log ++ more) = entriesOf k log ++ entriesOf k more := by
  simp [entriesOf]

/-- What a place has told concerns that place. -/
theorem entriesOf_own (k : Nat) (told : List α) :
    entriesOf k (told.map fun a => (k, a)) = told := by
  simp [entriesOf, List.filter_map, Function.comp_def]

/-- What another place has told does not concern this one. -/
theorem entriesOf_other {j : Nat} (h : j ≠ k) (told : List α) :
    entriesOf k (told.map fun a => (j, a)) = [] := by
  simp [entriesOf, List.filter_map, Function.comp_def, h]

/-! ## One step -/

/-- The task at a place takes a step: what it tells and writes is noted, and a permit is taken or
given back if it holds one more or one less. -/
structure Takes (r : Runner σ) (k : Nat) (s s' : State σ) (t : Task) (p p' : Phase)
    (told : List Notice) (asked : List Call) : Prop where
  thread : s.threads[k]? = some ⟨t, p⟩
  step : t.Step p p' told asked
  threads : s'.threads = s.threads.set k ⟨t, p'⟩
  notices : s'.notices = s.notices ++ told.map fun n => (k, n)
  calls : s'.calls = s.calls ++ asked.map fun c => (k, c)
  serves : r.sink.Serves s.sink asked s'.sink
  permits : s'.permits.map (fun left => left.available + p'.held) =
    s.permits.map fun left => left.available + p.held

/-- A permit that is taken is no longer available. -/
theorem acquire?_eq_some {permits left : Semaphore} (h : permits.acquire? = some left) :
    permits.available = left.available + 1 := by
  rcases permits with ⟨_ | n⟩
  · cases h
  · cases h
    rfl

/-- All that one step can do. -/
theorem advance_cases (h : r.advance k s = some s') :
    ∃ t p p' told asked, r.Takes k s s' t p p' told asked := by
  rcases Option.bind_eq_some_iff.1 h with ⟨⟨t, p⟩, hthread, h⟩
  rcases Option.bind_eq_some_iff.1 h with ⟨move, hmove, h⟩
  -- a step that tells, writes, takes or gives nothing leaves the logs and the permits as they are
  have hnotices : s.notices = s.notices ++ [].map fun n => (k, n) := (List.append_nil _).symm
  have hcalls : s.calls = s.calls ++ [].map fun c => (k, c) := (List.append_nil _).symm
  have hsink : r.sink.Serves s.sink [] s.sink := .none _
  refine ⟨t, p, ?_⟩
  cases p with
  | waiting =>
      cases hmove
      refine ⟨.admitted, [], [], ?_⟩
      simp only [perform] at h
      split at h
      case h_1 hnone =>
          cases h
          refine ⟨hthread, .permit, rfl, hnotices, hcalls, hsink, ?_⟩
          simp only [State.enter, hnone, Option.map_none]
      case h_2 permits hsome =>
          rcases Option.map_eq_some_iff.1 h with ⟨left, hleft, rfl⟩
          refine ⟨hthread, .permit, rfl, hnotices, hcalls, hsink, ?_⟩
          simp only [hsome, Option.map_some, acquire?_eq_some hleft, Phase.held]
  | admitted =>
      cases hmove
      cases h
      exact ⟨_, _, _, hthread, .begin_, rfl, rfl, hcalls, hsink, rfl⟩
  | started =>
      cases hmove
      cases h
      exact ⟨_, _, _, hthread, .apply, rfl, hnotices, hcalls, hsink, rfl⟩
  | applied untold made =>
      rcases untold with _ | ⟨x, rest⟩
      · rcases made with e | m
        · cases hmove
          cases h
          exact ⟨_, _, _, hthread, .fail e, rfl, hnotices, hcalls, hsink, rfl⟩
        · cases hmove
          cases h
          exact ⟨_, _, _, hthread, .write m _, rfl, hnotices, rfl, .more rfl (.none _), rfl⟩
      · cases hmove
        cases h
        exact ⟨_, _, _, hthread, .count x rest made, rfl, rfl, hcalls, hsink, rfl⟩
  | settled result =>
      cases hmove
      cases h
      exact ⟨_, _, _, hthread, .close result, rfl, rfl, hcalls, hsink, rfl⟩
  | told result =>
      cases hmove
      cases h
      refine ⟨_, _, _, hthread, .leave result, rfl, hnotices, hcalls, hsink, ?_⟩
      simp [Semaphore.release, Phase.held, Function.comp_def]
  | ended result => cases hmove

/-! ## Every schedule -/

def State.held (s : State σ) : Nat := (s.threads.map fun thread => thread.phase.held).sum

def State.left (s : State σ) : Nat :=
  (s.threads.map fun thread => thread.phase.left thread.task).sum

/-- What holds at any time of tasks side by side. -/
structure Sound (r : Runner σ) (tasks : List Task) (init : σ) (s : State σ) : Prop where
  ofTasks : s.threads.map Thread.task = tasks
  stands : ∀ (k : Nat) (t : Task) (p : Phase), s.threads[k]? = some ⟨t, p⟩ →
    t.Stands p (s.noticesOf k) (s.callsOf k)
  places : ∀ k, tasks.length ≤ k → s.noticesOf k = [] ∧ s.callsOf k = []
  serves : r.sink.Serves init (s.calls.map Prod.snd) s.sink
  /-- A permit that is not there is held. -/
  permits : s.permits.map (fun left => left.available + s.held) = r.bound

theorem sound_start (r : Runner σ) (tasks : List Task) (init : σ) :
    r.Sound tasks init (r.start tasks init) where
  ofTasks := by simp [start, Function.comp_def]
  stands := by
    intro k t p h
    simp only [start, List.getElem?_map, Option.map_eq_some_iff] at h
    rcases h with ⟨_, _, h⟩
    cases h
    exact .waiting
  places := fun _ _ => ⟨rfl, rfl⟩
  serves := .none init
  permits := by simp [start, State.held, Phase.held, Function.comp_def, List.map_const']

namespace Takes

variable {t : Task} {p p' : Phase} {told : List Notice} {asked : List Call}

/-- A step of one task changes what all hold as it changes what the task holds. -/
theorem held (h : r.Takes k s s' t p p' told asked) : s'.held + p.held = s.held + p'.held := by
  simp only [State.held, h.threads]
  exact sum_map_set (fun thread => thread.phase.held) ⟨t, p'⟩ h.thread

/-- A step of one task leaves all of them together one step fewer. -/
theorem left (h : r.Takes k s s' t p p' told asked) : s'.left + 1 = s.left := by
  have hsum : s'.left + p.left t = s.left + p'.left t := by
    simp only [State.left, h.threads]
    exact sum_map_set (fun thread => thread.phase.left thread.task) ⟨t, p'⟩ h.thread
  have hstep : p.left t = p'.left t + 1 := h.step.left
  omega

/-- A step is noted at its own place and nowhere else. -/
theorem noted (h : r.Takes k s s' t p p' told asked) (j : Nat) :
    s'.noticesOf j = s.noticesOf j ++ (if j = k then told else []) ∧
      s'.callsOf j = s.callsOf j ++ (if j = k then asked else []) := by
  simp only [State.noticesOf, State.callsOf, h.notices, h.calls, entriesOf_append]
  split
  case isTrue heq => simp only [heq, entriesOf_own, and_self]
  case isFalse hne => simp only [entriesOf_other (Ne.symm hne), and_self]

/-- What holds at any time still holds behind a step. -/
theorem sound (h : r.Takes k s s' t p p' told asked) (hs : r.Sound tasks init s) :
    r.Sound tasks init s' where
  ofTasks := by
    have htask : (s.threads.map Thread.task)[k]? = some t := by simp [h.thread]
    rcases List.getElem?_eq_some_iff.1 htask with ⟨_, hget⟩
    calc s'.threads.map Thread.task
        = (s.threads.map Thread.task).set k t := by rw [h.threads, List.map_set]
      _ = s.threads.map Thread.task := by rw [← hget, List.set_getElem_self]
      _ = tasks := hs.ofTasks
  stands := by
    intro j u q hj
    rw [(h.noted j).1, (h.noted j).2]
    rw [h.threads] at hj
    by_cases hjk : j = k
    · -- the task that has taken the step
      subst hjk
      rw [List.getElem?_set_self (List.getElem?_eq_some_iff.1 h.thread).1] at hj
      cases hj
      simpa using (hs.stands j t p h.thread).step h.step
    · rw [List.getElem?_set_ne (Ne.symm hjk)] at hj
      simpa [hjk] using hs.stands j u q hj
  places := by
    intro j hj
    have hk : k < tasks.length := by
      simpa [← hs.ofTasks] using (List.getElem?_eq_some_iff.1 h.thread).1
    have hjk : j ≠ k := by omega
    simpa [(h.noted j).1, (h.noted j).2, hjk] using hs.places j hj
  serves := by
    rw [h.calls, List.map_append, List.map_map]
    simpa [Function.comp_def] using hs.serves.append h.serves
  permits := by
    have hheld := h.held
    have hpermits := h.permits
    rw [← hs.permits]
    -- both have permits or neither has
    cases hleft : s.permits with
    | none => simp_all
    | some left =>
        cases hleft' : s'.permits with
        | none => simp_all
        | some left' =>
            simp only [hleft, hleft', Option.map_some, Option.some.injEq] at hpermits ⊢
            omega

end Takes

/-- One step keeps what holds at any time. -/
theorem Sound.advance (hs : r.Sound tasks init s) (h : r.advance k s = some s') :
    r.Sound tasks init s' := by
  rcases advance_cases h with ⟨_, _, _, _, _, htakes⟩
  exact htakes.sound hs

/-- Whatever the order of the steps is, what holds at any time keeps holding. -/
theorem Sound.follow (hs : r.Sound tasks init s) (schedule : List Nat) :
    r.Sound tasks init (r.follow schedule s) := by
  -- by induction on the schedule; a step that cannot be taken changes nothing
  induction schedule generalizing s with
  | nil => exact hs
  | cons k rest ih =>
      cases h : r.advance k s with
      | none => simpa [Runner.follow, h] using ih hs
      | some s' => simpa [Runner.follow, h] using ih (hs.advance h)

/-! ## Tasks at work -/

/-- The number of tasks between their start and their last word, by what they have told. -/
def State.busy (s : State σ) : Nat :=
  (List.range s.threads.length).countP fun k => underWay (s.noticesOf k)

/-- There are no more elements with a property than their numbers add up to, if each of them has
one. -/
theorem countP_le_sum {l : List α} {q : α → Bool} {f : α → Nat} :
    (∀ a ∈ l, q a = true → 1 ≤ f a) → l.countP q ≤ (l.map f).sum := by
  induction l with
  | nil => intro _; exact Nat.le_refl 0
  | cons a rest ih =>
      intro h
      have hrest := ih fun b hb => h b (List.mem_cons_of_mem a hb)
      rw [List.countP_cons, List.map_cons, List.sum_cons]
      split
      case isTrue hq =>
        have hfirst := h a List.mem_cons_self hq
        omega
      case isFalse => omega

/-- Every task between its start and its last word holds a permit. -/
theorem Sound.busy_le_held (hs : r.Sound tasks init s) : s.busy ≤ s.held := by
  -- both count by places, and a task that is counted on the left holds a permit
  have hmap : (List.range s.threads.length).map
      (fun k => (s.threads[k]?.map fun thread => thread.phase.held).getD 0) =
      s.threads.map fun thread => thread.phase.held :=
    List.ext_getElem (by simp) (by simp +contextual)
  rw [State.held, ← hmap]
  refine countP_le_sum ?_
  intro k hk hunder
  have hthread := List.getElem?_eq_getElem (List.mem_range.1 hk)
  rw [hthread]
  exact Nat.le_of_eq ((hs.stands k _ _ hthread).held hunder).symm

/-- No more tasks are at work than there are permits. -/
theorem Sound.busy_le (hs : r.Sound tasks init s) {n : Nat} (hn : r.bound = some n) :
    s.busy ≤ n := by
  have hheld := hs.busy_le_held
  have hpermits := hs.permits
  rw [hn] at hpermits
  rcases Option.map_eq_some_iff.1 hpermits with ⟨left, -, hleft⟩
  omega

/-! ## The end -/

/-- What one step does depends on the phase of the task. -/
theorem advance_eq {t : Task} {p : Phase} (h : s.threads[k]? = some ⟨t, p⟩) :
    r.advance k s = (t.move p).bind (r.perform k t s) := by
  rw [advance, h]
  rfl

/-- Only a task that waits for a permit, or has ended, cannot take a step. -/
theorem waiting_or_ended {t : Task} {p : Phase} (hthread : s.threads[k]? = some ⟨t, p⟩) :
    r.advance k s = none → p = .waiting ∨ ∃ result, p = .ended result := by
  intro h
  rw [advance_eq hthread] at h
  cases p with
  | waiting => exact .inl rfl
  | ended result => exact .inr ⟨result, rfl⟩
  | applied untold made =>
      rcases untold with _ | ⟨x, rest⟩
      · rcases made with e | m <;> cases h
      · cases h
  | _ => cases h

/-- A task waits for a permit only if there is none. -/
theorem permits_of_waiting {t : Task} (hthread : s.threads[k]? = some ⟨t, .waiting⟩) :
    r.advance k s = none → s.permits = some ⟨0⟩ := by
  intro h
  rw [advance_eq hthread] at h
  simp only [move, Option.bind_some, perform] at h
  split at h
  case h_1 => cases h
  case h_2 permits hpermits =>
      rcases permits with ⟨_ | n⟩
      · exact hpermits
      · cases h

/-- If no task can take a step then all have ended: a permit that a task waits for would be held by
another one, and that one could go on. -/
theorem Sound.ended (hs : r.Sound tasks init s) (h : ∀ k, r.advance k s = none) :
    ∀ thread ∈ s.threads, ∃ result, thread.phase = .ended result := by
  intro thread hmem
  have hstuck : ∀ thread ∈ s.threads, thread.phase = .waiting ∨
      ∃ result, thread.phase = .ended result := by
    intro thread hmem
    rcases List.mem_iff_getElem?.1 hmem with ⟨k, hk⟩
    exact waiting_or_ended hk (h k)
  -- so nobody holds a permit, and one is left for a task that waits
  have hheld : s.held = 0 := by
    refine List.sum_eq_zero_iff_forall_eq_nat.2 fun n hn => ?_
    rcases List.mem_map.1 hn with ⟨other, hother, rfl⟩
    rcases hstuck other hother with hphase | ⟨_, hphase⟩ <;> rw [hphase] <;> rfl
  rcases hstuck thread hmem with hwaiting | hended
  · exfalso
    rcases List.mem_iff_getElem?.1 hmem with ⟨k, hk⟩
    rcases thread with ⟨t, p⟩
    cases hwaiting
    have hpermits := hs.permits
    rw [permits_of_waiting hk (h k), hheld] at hpermits
    exact Nat.lt_irrefl 0 (r.positive 0 hpermits.symm)
  · exact hended

theorem result?_eq_some_iff {p : Phase} {result : Except FlowError Output} :
    p.result? = some result ↔ p = .ended result := by
  cases p <;> simp [Phase.result?]

/-- There are results if all tasks have ended, and they are theirs. -/
theorem results?_eq_some_iff {s : State σ} {results : List (Except FlowError Output)} :
    s.results? = some results ↔ s.threads.map Thread.phase = results.map Phase.ended := by
  rw [State.results?]
  induction s.threads generalizing results with
  | nil => cases results <;> simp
  | cons thread rest ih =>
      rw [List.mapM_cons, List.map_cons]
      constructor
      · intro h
        -- the first thread has ended, and the others have results
        rcases Option.bind_eq_some_iff.1 h with ⟨result, hresult, h⟩
        rcases Option.bind_eq_some_iff.1 h with ⟨others, hothers, h⟩
        cases h
        rw [List.map_cons, result?_eq_some_iff.1 hresult, ih.1 hothers]
      · intro h
        rcases results with _ | ⟨result, others⟩
        · cases h
        · rcases List.cons.inj h with ⟨hresult, hothers⟩
          rw [result?_eq_some_iff.2 hresult, ih.2 hothers]
          rfl

/-- Without results there is a task that has none. -/
theorem exists_of_results?_eq_none {s : State σ} :
    s.results? = none → ∃ thread ∈ s.threads, thread.phase.result? = none := by
  rw [State.results?]
  induction s.threads with
  | nil => intro h; cases h
  | cons thread rest ih =>
      intro h
      -- this thread has not ended, or one behind it has not
      cases hresult : thread.phase.result? with
      | none => exact ⟨thread, List.mem_cons_self, hresult⟩
      | some result =>
          cases hrest : rest.mapM fun thread => thread.phase.result? with
          | none =>
              rcases ih hrest with ⟨other, hother, hnone⟩
              exact ⟨other, List.mem_cons_of_mem _ hother, hnone⟩
          | some others =>
              rw [List.mapM_cons, hresult, hrest] at h
              cases h

/-- Unless all tasks have ended, one can take a step. -/
theorem Sound.exists_advance (hs : r.Sound tasks init s) :
    s.results? = none → ∃ k s', r.advance k s = some s' := by
  intro hnone
  by_contra hstuck
  rcases exists_of_results?_eq_none hnone with ⟨thread, hthread, hresult⟩
  have hnowhere : ∀ k, r.advance k s = none := by
    intro k
    exact Option.eq_none_iff_forall_ne_some.2 fun s' h => hstuck ⟨k, s', h⟩
  rcases hs.ended hnowhere thread hthread with ⟨result, hended⟩
  rw [hended] at hresult
  cases hresult

/-- When all have ended the result at a place is that of its task, which has gone its whole way. -/
theorem Sound.lives (hs : r.Sound tasks init s) {results : List (Except FlowError Output)}
    (hphases : s.threads.map Thread.phase = results.map Phase.ended) {t : Task} :
    tasks[k]? = some t →
      ∃ result, results[k]? = some result ∧ t.Lives (s.noticesOf k) (s.callsOf k) result := by
  intro ht
  rw [← hs.ofTasks, List.getElem?_map] at ht
  rcases Option.map_eq_some_iff.1 ht with ⟨⟨t, p⟩, hthread, rfl⟩
  have hp : (results.map Phase.ended)[k]? = some p := by
    rw [← hphases, List.getElem?_map, hthread]
    rfl
  rw [List.getElem?_map] at hp
  rcases Option.map_eq_some_iff.1 hp with ⟨result, hresult, rfl⟩
  refine ⟨result, hresult, ?_⟩
  -- how a task stands that has ended is its whole way
  generalize hnotices : s.noticesOf k = notices
  generalize hcalls : s.callsOf k = calls
  have hstands := hs.stands k t _ hthread
  rw [hnotices, hcalls] at hstands
  cases hstands with
  | ended hcomes => exact ⟨rfl, hcomes⟩

/-- What a task has written is among all that has been written. -/
theorem mem_calls_of_mem_callsOf {c : Call} : c ∈ s.callsOf k → c ∈ s.calls.map Prod.snd := by
  intro hc
  rcases List.mem_map.1 hc with ⟨e, he, rfl⟩
  exact List.mem_map_of_mem (List.mem_of_mem_filter he)

/-- There is one result for each task. -/
theorem Sound.length_results (hs : r.Sound tasks init s)
    {results : List (Except FlowError Output)}
    (hphases : s.threads.map Thread.phase = results.map Phase.ended) :
    results.length = tasks.length := by
  have h := congrArg List.length hphases
  rw [← hs.ofTasks]
  simpa using h.symm

/-- In front of a sink that answers by the model the results are those of the tasks run alone. -/
theorem Sound.results_eq (hs : r.Sound tasks init s) {results : List (Except FlowError Output)}
    (hphases : s.threads.map Thread.phase = results.map Phase.ended) (hsink : r.sink.ByModel)
    (alone : σ) : results = tasks.map fun t => (t.runWith r.sink alone).result := by
  refine List.ext_getElem? fun k => ?_
  rw [List.getElem?_map]
  cases ht : tasks[k]? with
  | none =>
      rw [Option.map_none, List.getElem?_eq_none_iff, hs.length_results hphases]
      exact List.getElem?_eq_none_iff.1 ht
  | some t =>
      rcases hs.lives hphases ht with ⟨result, hresult, hlives⟩
      have hanswers : ∀ c ∈ s.callsOf k, ∃ at_, c.answer = (r.sink.write c.model at_).1 :=
        fun c hc => hs.serves.answer (mem_calls_of_mem_callsOf hc)
      rw [hresult, hlives.comes.eq_runWith hsink hanswers alone]
      rfl

/-! ## Tasks that do not disturb each other -/

/-- Tasks side by side, in whatever order they take their steps.  At any time no more of them than
there are workers are between their start and their last word, the sink has been written as noted,
and each task has told and written the beginning of its own way.  Unless all have ended one of them
can take a step, and each step brings the end nearer.  When all have ended each has told its start,
its counts and one last word, and has written its model, once, if its flow has made one and nothing
otherwise; the results stand in the order of the tasks, and in front of a sink whose answer depends
on the model only they are what the tasks give alone. -/
theorem tasks_undisturbed (sink : Service σ) (workers : Nat) (tasks : List Task) (init : σ)
    (schedule : List Nat) :
    let r := (Runner.new sink).withMaxConcurrent workers
    let s := r.follow schedule (r.start tasks init)
    s.busy ≤ max workers 1 ∧
    sink.Serves init (s.calls.map Prod.snd) s.sink ∧
    (∀ (k : Nat) (t : Task), tasks[k]? = some t →
      ∃ notices calls result, t.Lives notices calls result ∧
        s.noticesOf k <+: notices ∧ s.callsOf k <+: calls) ∧
    (∀ k, tasks.length ≤ k → s.noticesOf k = [] ∧ s.callsOf k = []) ∧
    (s.results? = none → ∃ k s', r.advance k s = some s') ∧
    (∀ k s', r.advance k s = some s' → s'.left < s.left) ∧
    (∀ results, s.results? = some results →
      results.length = tasks.length ∧
      (∀ (k : Nat) (t : Task), tasks[k]? = some t →
        ∃ result, results[k]? = some result ∧ t.Lives (s.noticesOf k) (s.callsOf k) result) ∧
      (sink.ByModel → ∀ alone, results = tasks.map fun t => (t.runWith sink alone).result)) := by
  intro r s
  have hs : r.Sound tasks init s := (sound_start r tasks init).follow schedule
  -- all but the last parts are parts of the invariant
  refine ⟨hs.busy_le rfl, hs.serves, ?begins, hs.places, hs.exists_advance, ?left, ?done⟩
  case begins =>
    intro k t ht
    rw [← hs.ofTasks, List.getElem?_map] at ht
    rcases Option.map_eq_some_iff.1 ht with ⟨⟨t, p⟩, hthread, rfl⟩
    exact (hs.stands k t p hthread).begins
  case left =>
    intro k s' h
    rcases advance_cases h with ⟨_, _, _, _, _, htakes⟩
    have hleft := htakes.left
    omega
  case done =>
    intro results hresults
    -- where there are results every thread has ended
    have hphases : s.threads.map Thread.phase = results.map Phase.ended :=
      results?_eq_some_iff.1 hresults
    constructor
    · exact hs.length_results hphases
    constructor
    · intro k t ht
      exact hs.lives hphases ht
    · intro hsink alone
      exact hs.results_eq hphases hsink alone

def three : List Task :=
  let flow : Flow := ⟨.identity, DecoderOptions.standard.json.decoder, .standard, ⟨[], [], []⟩, none⟩
  [⟨"a", flow, "\x7b\"x\":\"1\"\x7d"⟩, ⟨"b", flow, "\x7b"⟩, ⟨"c", flow, "\x7b\"y\":\"2\"\x7d"⟩]

/-- The three tasks take their steps in turn, but only two of them may be at work at once; the one
without a document writes nothing. -/
theorem tasks_undisturbed_in_turn :
    let sink := (Sink.table ⟨"r", "c"⟩).service
    let r := (Runner.new sink).withMaxConcurrent 2
    let s := r.follow (List.replicate 20 [0, 1, 2]).flatten (r.start three .empty)
    (r.follow [0, 1, 2, 0, 1, 2] (r.start three .empty)).busy = 2 ∧
      s.calls.map Prod.fst = [0, 2] ∧
      ∃ results, s.results? = some results ∧ results.length = 3 ∧
        results = three.map fun t => (t.runWith sink .empty).result := by
  intro sink r s
  -- the schedule is long enough for every task to end
  have hended : s.results?.isSome = true := by decide +kernel
  rcases Option.isSome_iff_exists.1 hended with ⟨results, hresults⟩
  rcases tasks_undisturbed sink 2 three .empty (List.replicate 20 [0, 1, 2]).flatten with
    ⟨-, -, -, -, -, -, hdone⟩
  rcases hdone results hresults with ⟨hlength, -, halone⟩
  exact ⟨by decide +kernel, by decide +kernel, results, hresults, hlength,
    halone (Sink.byModel _) .empty⟩

/-- What comes of tasks one after the other is what comes of each alone. -/
theorem results_runAll (sink : Sink) (tasks : List Task) (db alone : Store) :
    (runAll sink tasks db).results =
      tasks.map fun t => (t.runWith sink.service alone).result.map Output.model := by
  induction tasks generalizing db with
  | nil => rfl
  | cons t rest ih =>
      -- what the store holds by then does not change what comes of the task
      have hfirst : (t.run sink db).result = (t.runWith sink.service alone).result := by
        rcases t.lives_runWith sink.service db with ⟨calls, hlives, hserves⟩
        exact hlives.comes.eq_runWith sink.byModel (fun _ hc => hserves.answer hc) alone
      calc (runAll sink (t :: rest) db).results
          = (t.run sink db).result.map Output.model ::
              (runAll sink rest (t.run sink db).state).results := rfl
        _ = (t :: rest).map fun t => (t.runWith sink.service alone).result.map Output.model := by
            rw [hfirst, ih, List.map_cons]

/-- The results of tasks side by side in front of a sink are those of the tasks one after the
other. -/
theorem results_eq_runAll (r : Runner Store) (sink : Sink) (tasks : List Task) (db : Store)
    (schedule : List Nat) {results : List (Except FlowError Output)} :
    r.sink = sink.service → (r.follow schedule (r.start tasks db)).results? = some results →
      results.map (·.map Output.model) = (runAll sink tasks db).results := by
  intro hsink hresults
  have hs := (sound_start r tasks db).follow schedule
  have hbyModel : r.sink.ByModel := hsink ▸ sink.byModel
  calc results.map (·.map Output.model)
      = (tasks.map fun t => (t.runWith sink.service db).result).map (·.map Output.model) := by
        rw [hs.results_eq (results?_eq_some_iff.1 hresults) hbyModel db, hsink]
    _ = (runAll sink tasks db).results := by
        rw [results_runAll sink tasks db db, List.map_map]
        rfl

end Runner
end Recast
