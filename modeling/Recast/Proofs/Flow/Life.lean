import Recast.Flow.Runner

/-!
# Life — the whole way of one task

What a task tells and writes follows from its flow and from the answer of the sink, whoever else is
at work.  `Task.Lives` says what that is from its start to its end, `Task.Stands` how much of it is
done at each phase, and `Task.Step` what one step adds.

Main statements: `Task.Stands.step`, a step leads from a phase as it should be to the next one, and
`Task.Stands.begins`, what has been told and written so far is the beginning of a whole way.
-/

namespace Recast

/-- A sink gives the answers of some calls, one after the other, and comes to a state. -/
inductive Service.Serves (sink : Service σ) : σ → List Task.Call → σ → Prop
  | none (s : σ) : Serves sink s [] s
  | more {m : Model} {a : Except StorageError Unit} {s s' s'' : σ} {rest : List Task.Call} :
      sink.write m s = (a, s') → Serves sink s' rest s'' → Serves sink s (⟨m, a⟩ :: rest) s''

/-- The answer to a model does not depend on what has been written before. -/
def Service.ByModel (sink : Service σ) : Prop :=
  ∀ m s s', (sink.write m s).1 = (sink.write m s').1

namespace Service

variable {sink : Service σ}

theorem Serves.append {s s' s'' : σ} {calls more : List Task.Call} (h : sink.Serves s calls s')
    (hmore : sink.Serves s' more s'') : sink.Serves s (calls ++ more) s'' := by
  induction h with
  | none => exact hmore
  | more hwrite _ ih => exact .more hwrite (ih hmore)

/-- Each call has been answered at some state. -/
theorem Serves.answer {s s' : σ} {calls : List Task.Call} (h : sink.Serves s calls s')
    {c : Task.Call} : c ∈ calls → ∃ at_, c.answer = (sink.write c.model at_).1 := by
  induction h with
  | none => intro hc; cases hc
  | @more m a s s' s'' rest hwrite _ ih =>
      intro hc
      rcases List.mem_cons.1 hc with rfl | hc
      · exact ⟨s, by simp only [hwrite]⟩
      · exact ih hc

end Service

/-- The answers of a sink do not depend on its store. -/
theorem Sink.byModel (s : Sink) : s.service.ByModel := by
  intro m db db'
  cases s <;> rfl

namespace Task

variable {t : Task} {p p' : Phase} {notices told : List Notice} {calls asked : List Call}
  {result : Except FlowError Output}

/-! ## Whole ways -/

def opening (t : Task) : List Notice :=
  .started t.id :: (t.flow.apply t.input).timings.map .timing

/-- What comes of a task, and what is written on the way: one model, once, if its flow makes one, and
nothing if it fails. -/
inductive Comes (t : Task) : List Call → Except FlowError Output → Prop
  | failed {e : FlowError} : (t.flow.apply t.input).result = .error e → Comes t [] (.error e)
  | written {m : Model} (answer : Except StorageError Unit) :
      (t.flow.apply t.input).result = .ok m → Comes t [⟨m, answer⟩] (t.conclude m answer)

/-- The way of a task from its start to its end. -/
structure Lives (t : Task) (notices : List Notice) (calls : List Call)
    (result : Except FlowError Output) : Prop where
  told : notices =
    .started t.id :: (t.flow.apply t.input).timings.map .timing ++ [t.closing result]
  comes : t.Comes calls result

/-- A task that is run alone goes its whole way. -/
theorem lives_runWith (t : Task) (sink : Service σ) (s : σ) :
    ∃ calls, t.Lives (t.runWith sink s).notices calls (t.runWith sink s).result ∧
      sink.Serves s calls (t.runWith sink s).state := by
  cases h : (t.flow.apply t.input).result with
  | error e =>
      simp only [runWith, h]
      exact ⟨[], ⟨rfl, .failed h⟩, .none s⟩
  | ok m =>
      simp only [runWith, h]
      exact ⟨[⟨m, (sink.write m s).1⟩], ⟨rfl, .written _ h⟩, .more rfl (.none _)⟩

/-- In front of a sink that answers by the model there is one thing that can come of a task. -/
theorem Comes.eq_runWith {sink : Service σ} (h : t.Comes calls result) (hsink : sink.ByModel)
    (hanswer : ∀ c ∈ calls, ∃ at_, c.answer = (sink.write c.model at_).1) (s : σ) :
    result = (t.runWith sink s).result := by
  cases h with
  | failed hmade => simp only [runWith, hmade]
  | @written m answer hmade =>
      rcases hanswer _ List.mem_cons_self with ⟨at_, hat⟩
      have hsame : answer = (sink.write m s).1 := hat.trans (hsink m at_ s)
      simp only [runWith, hmade, hsame]

/-! ## Steps -/

/-- What a step of a task leads to, and what it tells and writes. -/
inductive Step (t : Task) : Phase → Phase → List Notice → List Call → Prop
  | permit : Step t .waiting .admitted [] []
  | begin_ : Step t .admitted .started [.started t.id] []
  | apply : Step t .started
      (.applied (t.flow.apply t.input).timings (t.flow.apply t.input).result) [] []
  | count (x : Timing) (rest : List Timing) (made : Except FlowError Model) :
      Step t (.applied (x :: rest) made) (.applied rest made) [.timing x] []
  | fail (e : FlowError) : Step t (.applied [] (.error e)) (.settled (.error e)) [] []
  | write (m : Model) (answer : Except StorageError Unit) :
      Step t (.applied [] (.ok m)) (.settled (t.conclude m answer)) [] [⟨m, answer⟩]
  | close (result : Except FlowError Output) :
      Step t (.settled result) (.told result) [t.closing result] []
  | leave (result : Except FlowError Output) : Step t (.told result) (.ended result) [] []

/-- What a task has told and written when it is at a phase. -/
inductive Stands (t : Task) : Phase → List Notice → List Call → Prop
  | waiting : Stands t .waiting [] []
  | admitted : Stands t .admitted [] []
  | started : Stands t .started [.started t.id] []
  | applied {told : List Notice} {untold : List Timing} :
      told ++ untold.map .timing = t.opening →
      Stands t (.applied untold (t.flow.apply t.input).result) told []
  | settled {calls : List Call} {result : Except FlowError Output} :
      t.Comes calls result → Stands t (.settled result) t.opening calls
  | told {calls : List Call} {result : Except FlowError Output} :
      t.Comes calls result → Stands t (.told result) (t.opening ++ [t.closing result]) calls
  | ended {calls : List Call} {result : Except FlowError Output} :
      t.Comes calls result → Stands t (.ended result) (t.opening ++ [t.closing result]) calls

/-- A step leads from a phase as it should be to the next one. -/
theorem Stands.step (h : t.Stands p notices calls) (hstep : t.Step p p' told asked) :
    t.Stands p' (notices ++ told) (calls ++ asked) := by
  cases hstep with
  | permit => cases h; exact .admitted
  | begin_ => cases h; exact .started
  | apply => cases h; exact .applied rfl
  | count x rest made =>
      cases h with
      | applied htold => exact .applied (by simpa using htold)
  | fail e =>
      -- the phase carries what the flow has made
      generalize hmade : Except.error e = made at h
      cases h with
      | applied htold =>
          have hall : notices = t.opening := by simpa using htold
          simpa [hall] using Stands.settled (.failed hmade.symm)
  | write m answer =>
      generalize hmade : Except.ok m = made at h
      cases h with
      | applied htold =>
          have hall : notices = t.opening := by simpa using htold
          simpa [hall] using Stands.settled (.written answer hmade.symm)
  | close result =>
      cases h with
      | settled hcomes => simpa using Stands.told hcomes
  | leave result =>
      cases h with
      | told hcomes => simpa using Stands.ended hcomes

/-- What a task has told and written so far is the beginning of a whole way. -/
theorem Stands.begins (h : t.Stands p notices calls) :
    ∃ notices' calls' result, t.Lives notices' calls' result ∧ notices <+: notices' ∧
      calls <+: calls' := by
  -- before it is known what comes of the task, any answer of the sink may still follow
  have hany : ∀ notices, notices <+: t.opening →
      ∃ notices' calls' result, t.Lives notices' calls' result ∧ notices <+: notices' ∧
        [] <+: calls' := by
    intro notices hprefix
    rcases t.lives_runWith (σ := Unit) ⟨fun _ s => (.ok (), s)⟩ () with ⟨calls', hlives, -⟩
    refine ⟨_, calls', _, hlives, ?_, List.nil_prefix⟩
    rw [hlives.told]
    exact hprefix.trans (List.prefix_append _ _)
  cases h with
  | waiting => exact hany [] List.nil_prefix
  | admitted => exact hany [] List.nil_prefix
  | started => exact hany _ ⟨_, rfl⟩
  | applied htold => exact hany _ ⟨_, htold⟩
  | settled hcomes => exact ⟨_, _, _, ⟨rfl, hcomes⟩, List.prefix_append _ _, List.prefix_rfl⟩
  | told hcomes => exact ⟨_, _, _, ⟨rfl, hcomes⟩, List.prefix_rfl, List.prefix_rfl⟩
  | ended hcomes => exact ⟨_, _, _, ⟨rfl, hcomes⟩, List.prefix_rfl, List.prefix_rfl⟩

/-! ## Permits and the rest of the way -/

def Phase.held : Phase → Nat
  | .waiting | .ended _ => 0
  | _ => 1

/-- The number of steps that a task has still to take. -/
def Phase.left (t : Task) : Phase → Nat
  | .waiting => (t.flow.apply t.input).timings.length + 6
  | .admitted => (t.flow.apply t.input).timings.length + 5
  | .started => (t.flow.apply t.input).timings.length + 4
  | .applied untold _ => untold.length + 3
  | .settled _ => 2
  | .told _ => 1
  | .ended _ => 0

/-- Every step leaves a task one step fewer. -/
theorem Step.left (h : t.Step p p' told asked) : p.left t = p'.left t + 1 := by
  cases h <;> simp [Phase.left]

def Notice.opens : Notice → Bool
  | .started _ => true
  | _ => false

def Notice.closes : Notice → Bool
  | .finished _ | .failed _ _ => true
  | _ => false

/-- By what a task has told it is between its start and its last word. -/
def underWay (notices : List Notice) : Bool :=
  notices.any Notice.opens && !notices.any Notice.closes

theorem closes_closing (t : Task) (result : Except FlowError Output) :
    (t.closing result).closes = true := by
  cases result <;> rfl

/-- A task between its start and its last word holds a permit. -/
theorem Stands.held (h : t.Stands p notices calls) : underWay notices = true → p.held = 1 := by
  intro hunder
  cases h with
  | waiting => cases hunder
  | ended => simp [underWay, closes_closing] at hunder
  | _ => rfl

end Task
end Recast
