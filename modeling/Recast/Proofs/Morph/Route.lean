import Recast.Morph.Run
import Recast.Proofs.Morph.Index
import Recast.Proofs.Stream.Content
import Recast.Proofs.Stream.Outcome

/-!
# Route — programs without collectors

A route leads from a path of a record to a path of the result.  `Route.meaning` says what routes make
of the literals of a record, one literal after the other and route by route.  A program whose pipes
are those of routes hands on exactly this: `Route.run_morph`.

What a function on the route does to a value depends on the values of the record that it has seen
before.  Here it is said without memories: `Function.answer` is the answer to a value after earlier
ones, and `Function.through` what becomes of a value behind several functions, each of which has seen
the answers of those before it.  `Morph.applyAll_memories` is the link to the memories of a program.
-/

namespace Recast

namespace Function

/-! ## One function -/

def memoryAfter (f : Function) (m : Memory) (values : List String) : Memory :=
  values.foldl (fun m v => (f.apply m v).2) m

/-- The answers to some values, those that are dropped left out. -/
def answersFrom (f : Function) (m : Memory) : List String → List String
  | [] => []
  | v :: rest => (f.apply m v).1.toList ++ f.answersFrom (f.apply m v).2 rest

/-- What becomes of a value after earlier values of the record. -/
def answer (f : Function) (earlier : List String) (value : String) : Option String :=
  (f.apply (f.memoryAfter .fresh earlier) value).1

/-- What becomes of the values of a record, those that are dropped left out. -/
def answers (f : Function) (values : List String) : List String :=
  f.answersFrom .fresh values

theorem memoryAfter_concat (f : Function) (m : Memory) (values : List String) (v : String) :
    f.memoryAfter m (values ++ [v]) = (f.apply (f.memoryAfter m values) v).2 := by
  simp [memoryAfter]

theorem answersFrom_concat (f : Function) (m : Memory) (values : List String) (v : String) :
    f.answersFrom m (values ++ [v]) =
      f.answersFrom m values ++ (f.apply (f.memoryAfter m values) v).1.toList := by
  induction values generalizing m with
  | nil => simp [answersFrom, memoryAfter]
  | cons u rest ih => simp [answersFrom, ih, memoryAfter]

theorem answers_concat (f : Function) (values : List String) (v : String) :
    f.answers (values ++ [v]) = f.answers values ++ (f.answer values v).toList :=
  f.answersFrom_concat .fresh values v

/-- Whatever a function has seen, clearing its memory makes it fresh. -/
theorem reset_memoryAfter (f : Function) (values : List String) :
    f.reset (f.memoryAfter .fresh values) = .fresh := by
  -- a call leaves a memory that is reset to the same
  have hstep : ∀ m v, f.reset m = .fresh → f.reset (f.apply m v).2 = .fresh := by
    intro m v h
    cases f with
    | occurrence only => exact h
    | unique =>
        simp only [apply]
        split <;> exact h
    | extract p format => cases format <;> exact h
    | _ => exact h
  -- what holds before the values holds after each of them
  suffices h : ∀ m, f.reset m = .fresh → f.reset (f.memoryAfter m values) = .fresh from
    h .fresh (by cases f <;> rfl)
  induction values with
  | nil => exact fun _ h => h
  | cons v rest ih => exact fun m h => ih _ (hstep m v h)

/-! ## Several functions -/

/-- What becomes of a value behind several functions, after earlier values of the record. -/
def through : List Function → List String → String → Option String
  | [], _, value => some value
  | f :: fs, earlier, value => (f.answer earlier value).bind (through fs (f.answers earlier))

def memories : List Function → List String → List Memory
  | [], _ => []
  | f :: fs, values => f.memoryAfter .fresh values :: memories fs (f.answers values)

theorem memories_nil (fs : List Function) : memories fs [] = fs.map fun _ => .fresh := by
  induction fs with
  | nil => rfl
  | cons f fs ih =>
      rw [memories, List.map_cons]
      exact congrArg _ ih

end Function

/-- A reset forgets all values. -/
theorem Morph.resetAll_memories (fs : List Function) (values : List String) :
    Morph.resetAll fs (Function.memories fs values) = Function.memories fs [] := by
  induction fs generalizing values with
  | nil => rfl
  | cons f fs ih =>
      simp only [Morph.resetAll, Function.memories, List.headD_cons, List.tail_cons,
        Function.reset_memoryAfter, ih]
      rfl

/-- A program's functions answer by the values they have seen, and remember one more. -/
theorem Morph.applyAll_memories (fs : List Function) (earlier : List String) (value : String) :
    Morph.applyAll fs (Function.memories fs earlier) value =
      (Function.through fs earlier value, Function.memories fs (earlier ++ [value])) := by
  induction fs generalizing earlier value with
  | nil => rfl
  | cons f fs ih =>
      -- the functions behind have seen the answers of the first one, so the induction takes those
      have hanswer : f.apply (f.memoryAfter .fresh earlier) value =
          (f.answer earlier value, f.memoryAfter .fresh (earlier ++ [value])) := by
        rw [Function.memoryAfter_concat]
        rfl
      simp only [Morph.applyAll, Function.memories, List.headD_cons, List.tail_cons, hanswer,
        Function.through, Function.answers_concat]
      cases f.answer earlier value with
      | none => simp
      | some next => simp [ih]

/-! ## Literals under their paths -/

def Content.flat (around : List String) (c : Content) : List (String × String) :=
  (c.literals around).map fun l => (Source.path l.1 l.2.1, l.2.2)

/-- The values of a list of literals under a path. -/
def valuesAt (path : String) (literals : List (String × String)) : List String :=
  (literals.filter fun l => l.1 = path).map Prod.snd

theorem valuesAt_concat (path : String) (literals : List (String × String)) (l : String × String) :
    valuesAt path (literals ++ [l]) =
      valuesAt path literals ++ if l.1 = path then [l.2] else [] := by
  unfold valuesAt
  by_cases h : l.1 = path <;> simp [h]

/-! ## Routes -/

/-- A way from a path of the record to a path of the result. -/
structure Route where
  source : String
  target : String
  filter : Option ValueFilter
  functions : List Function

namespace Route

def admits (r : Route) (value : String) : Bool :=
  match r.filter with
  | some f => f.passes value
  | none => true

/-- What becomes of a value after earlier values under the path: the filter comes first, then the
functions, which have only seen what has passed the filter. -/
def answer (r : Route) (earlier : List String) (value : String) : Option String :=
  if r.admits value then Function.through r.functions (earlier.filter r.admits) value else none

/-- What routes emit for a literal, after earlier literals of the record. -/
def emitted (routes : List Route) (before : List (String × String)) (path value : String) :
    List Event :=
  routes.filterMap fun r =>
    if r.source = path then
      (r.answer (valuesAt path before) value).map fun v => .literal r.target v
    else none

/-- What routes emit for literals, after earlier literals of the record. -/
def meaning (routes : List Route) (before : List (String × String)) :
    List (String × String) → List Event
  | [] => []
  | l :: rest => emitted routes before l.1 l.2 ++ meaning routes (before ++ [l]) rest

/-- Routes emit for further literals with those before them in mind. -/
theorem meaning_append (routes : List Route) (before first second : List (String × String)) :
    meaning routes before (first ++ second) =
      meaning routes before first ++ meaning routes (before ++ first) second := by
  induction first generalizing before with
  | nil => simp [meaning]
  | cons l rest ih => simp [meaning, ih]

/-- What routes make of a record. -/
def record (routes : List Route) (q : WholeRecord) : List Event :=
  .startRecord q.id :: (meaning routes [] (q.content.flat []) ++ [.endRecord])

/-! ## Pipes of routes -/

def pipe (r : Route) : Pipe :=
  ⟨r.source, r.filter, r.functions, .emit r.target⟩

def morph (routes : List Route) : Morph :=
  ⟨routes.map pipe, []⟩

def held (r : Route) (before : List (String × String)) : List Function.Memory :=
  Function.memories r.functions ((valuesAt r.source before).filter r.admits)

def state (routes : List Route) (before : List (String × String)) (around : List String) :
    Morph.State :=
  ⟨routes.map fun r => r.held before, [], around⟩

theorem initial_morph (routes : List Route) : (morph routes).initial = state routes [] [] := by
  have h : ∀ r ∈ routes, (r.pipe.functions.map fun _ => Function.Memory.fresh) = r.held [] := by
    intro r _
    exact (Function.memories_nil r.functions).symm
  simp only [Morph.initial, morph, state, List.map_map, List.map_nil]
  exact congrArg (fun ms => (⟨ms, [], []⟩ : Morph.State)) (List.map_congr_left h)

/-- Clearing the state of a program of routes makes it fresh. -/
theorem reset_state (routes : List Route) (before : List (String × String))
    (around : List String) : (morph routes).reset (state routes before around) =
      state routes [] [] := by
  have hmemories : ((morph routes).pipes.zipIdx.map fun p => Morph.resetAll p.1.functions
      ((routes.map fun r => r.held before).getD p.2 [])) = routes.map fun r => r.held [] := by
    refine List.ext_getElem? fun i => ?_
    cases h : routes[i]? with
    | none => simp [morph, h]
    | some r => simp [morph, pipe, held, h, List.getD_eq_getElem?_getD, Morph.resetAll_memories,
        valuesAt]
  exact congrArg (fun ms => (⟨ms, [], []⟩ : Morph.State)) hmemories

/-- A value passes the pipe of a route through its filter and then through its functions. -/
theorem passPipe_eq (r : Route) (ms : List Function.Memory) (value : String) :
    Morph.passPipe r.pipe ms value =
      if r.admits value then Morph.applyAll r.functions ms value else (none, ms) := by
  unfold Morph.passPipe admits pipe
  cases r.filter <;> rfl

/-- With the memory of earlier literals a pipe gives the answer of its route, and remembers the
value. -/
theorem passPipe_held (r : Route) (before : List (String × String)) (value : String) :
    Morph.passPipe r.pipe (r.held before) value =
      (r.answer (valuesAt r.source before) value, r.held (before ++ [(r.source, value)])) := by
  rw [passPipe_eq, answer, held, held, valuesAt_concat, if_pos rfl, List.filter_append]
  by_cases h : r.admits value
  · simp [h, Morph.applyAll_memories]
  · simp [h]

variable {routes : List Route}

/-- Routes whose paths are plain: no star in a source, no variable for a target. -/
def Plain (routes : List Route) : Prop :=
  ∀ r ∈ routes, '*' ∉ r.source.toList ∧ Script.isVariable r.target = false

/-- A value meets the pipe of a route, which stands behind the pipes with memories `done`. -/
theorem runPipe_pipe (m : Morph) (dispatch : String → String → Morph.State → Outcome Morph.State)
    {r : Route} (htarget : Script.isVariable r.target = false) (before : List (String × String))
    (value : String) (done rest : List (List Function.Memory)) (around : List String) :
    m.runPipe (Morph.emitTo dispatch) value (r.pipe, done.length)
        ⟨done ++ r.held before :: rest, [], around⟩ =
      ⟨⟨done ++ r.held (before ++ [(r.source, value)]) :: rest, [], around⟩,
        ((r.answer (valuesAt r.source before) value).map fun v => .literal r.target v).toList,
        none⟩ := by
  have hmemory : (done ++ r.held before :: rest).getD done.length [] = r.held before := by simp
  have hset : ∀ ms, (done ++ r.held before :: rest).set done.length ms = done ++ ms :: rest := by
    simp
  simp only [Morph.runPipe, hmemory, passPipe_held, hset]
  cases r.answer (valuesAt r.source before) value with
  | none => rfl
  | some v => simp [pipe, Morph.emitTo, htarget, Outcome.hand]

/-- One literal meets the pipes of routes, behind pipes that have their memories already. -/
theorem each_runPipe (m : Morph) (dispatch : String → String → Morph.State → Outcome Morph.State)
    (hplain : Plain routes) (before : List (String × String)) (path value : String)
    (done : List (List Function.Memory)) (around : List String) :
    Outcome.each (m.runPipe (Morph.emitTo dispatch) value)
        (((routes.map pipe).zipIdx done.length).filter fun p => Source.accepts p.1.source path)
        ⟨done ++ routes.map fun r => r.held before, [], around⟩ =
      ⟨⟨done ++ routes.map fun r => r.held (before ++ [(path, value)]), [], around⟩,
        emitted routes before path value, none⟩ := by
  induction routes generalizing done with
  | nil => rfl
  | cons r rest ih =>
      obtain ⟨hstar, htarget⟩ := hplain r List.mem_cons_self
      have haccepts : Source.accepts r.pipe.source path = (r.source == path) := by
        rw [Source.accepts, if_neg (by simpa [pipe] using hstar)]
        rfl
      -- the pipes behind find their memories behind those of the pipe in front
      have hnext := ih (fun r hr => hplain r (List.mem_cons_of_mem _ hr))
        (done ++ [r.held (before ++ [(path, value)])])
      simp only [List.length_append, List.length_singleton, List.append_assoc,
        List.singleton_append] at hnext
      rw [List.map_cons, List.zipIdx_cons, List.map_cons, List.map_cons]
      by_cases hpath : r.source = path
      · subst hpath
        rw [List.filter_cons_of_pos (by simp [haccepts]), Outcome.each_cons,
          runPipe_pipe m dispatch htarget, Outcome.andThen_of_none rfl, hnext]
        simp only [emitted, List.filterMap_cons, if_pos]
        cases r.answer (valuesAt r.source before) value <;> simp
      · -- the memory of a pipe that does not listen stays as it is
        have hheld : r.held (before ++ [(path, value)]) = r.held before := by
          simp [held, valuesAt_concat, Ne.symm hpath]
        rw [List.filter_cons_of_neg (by simpa [haccepts] using hpath)]
        rw [hheld] at hnext ⊢
        rw [hnext]
        simp [emitted, hpath]

/-! ## Runs -/

/-- A literal inside entities. -/
theorem step_literal (hplain : Plain routes) (before : List (String × String))
    (around : List String) (name value : String) :
    (morph routes).step (.literal name value) (state routes before around) =
      ⟨state routes (before ++ [(Source.path around name, value)]) around,
        emitted routes before (Source.path around name) value, none⟩ := by
  change Outcome.each _ ((morph routes).listeners (Source.path around name)) _ = _
  rw [Morph.listeners_eq]
  exact each_runPipe (morph routes) _ hplain before _ value [] around

/-- The content of a record or of an entity. -/
theorem each_content (hplain : Plain routes) (c : Content) (before : List (String × String))
    (around : List String) :
    Outcome.each (morph routes).step c.events (state routes before around) =
      ⟨state routes (before ++ c.flat around) around, meaning routes before (c.flat around),
        none⟩ := by
  induction c generalizing before around with
  | done => simp [Content.events, Content.flat, Content.literals, meaning, Outcome.quiet]
  | literal name value rest ih =>
      rw [Content.events, Outcome.each_cons, step_literal hplain, Outcome.andThen_of_none rfl, ih]
      simp [Content.flat, Content.literals, meaning]
  | entity name inner rest ihinner ihrest =>
      have hstart : (morph routes).step (.startEntity name) (state routes before around) =
          .quiet (state routes before (around ++ [name])) := rfl
      have hend : ∀ before,
          (morph routes).step .endEntity (state routes before (around ++ [name])) =
            .quiet (state routes before around) := by
        intro before
        simp [Morph.step, state]
      -- the entity is entered, its content and what is behind it follow
      calc Outcome.each (morph routes).step (Content.entity name inner rest).events
            (state routes before around)
          = Outcome.each (morph routes).step (inner.events ++ .endEntity :: rest.events)
              (state routes before (around ++ [name])) := by
            rw [Content.events, Outcome.each_cons, hstart, Outcome.quiet_andThen]
        _ = ⟨state routes (before ++ inner.flat (around ++ [name]) ++ rest.flat around) around,
              meaning routes before (inner.flat (around ++ [name])) ++
                meaning routes (before ++ inner.flat (around ++ [name])) (rest.flat around),
              none⟩ := by
            rw [Outcome.each_append, ihinner, Outcome.andThen_of_none rfl, Outcome.each_cons, hend,
              Outcome.quiet_andThen, ihrest]
        _ = ⟨state routes (before ++ (Content.entity name inner rest).flat around) around,
              meaning routes before ((Content.entity name inner rest).flat around), none⟩ := by
            simp [Content.flat, Content.literals, meaning_append]

/-- A whole record, from the state in which it finds the program. -/
theorem each_record (hplain : Plain routes) (q : WholeRecord) :
    Outcome.each (morph routes).step q.events (morph routes).initial =
      ⟨(morph routes).initial, record routes q, none⟩ := by
  have hstart : (morph routes).step (.startRecord q.id) (state routes [] []) =
      .hand (state routes [] []) (.startRecord q.id) :=
    congrArg (Outcome.hand · _) (reset_state routes [] [])
  have hend : ∀ before, (morph routes).step .endRecord (state routes before []) =
      .hand (state routes [] []) .endRecord :=
    fun before => congrArg (Outcome.hand · _) (reset_state routes before [])
  have hcontent := each_content hplain q.content [] []
  calc Outcome.each (morph routes).step q.events (morph routes).initial
      = (Outcome.hand (state routes [] []) (.startRecord q.id)).andThen
          (Outcome.each (morph routes).step (q.content.events ++ [.endRecord])) := by
        rw [initial_morph, WholeRecord.events, Outcome.each_cons, hstart]
    _ = (Outcome.hand (state routes [] []) (.startRecord q.id)).andThen fun _ =>
          ⟨state routes [] [], meaning routes [] (q.content.flat []) ++ [.endRecord], none⟩ := by
        rw [Outcome.hand_andThen, Outcome.each_append, hcontent, Outcome.andThen_of_none rfl,
          Outcome.each_singleton, hend]
        rfl
    _ = ⟨(morph routes).initial, record routes q, none⟩ := by
        rw [Outcome.hand_andThen, initial_morph]
        rfl

/-- Programs of routes make of whole records what the routes make of each. -/
theorem run_morph (hplain : Plain routes) (qs : List WholeRecord) :
    (morph routes).run (qs.flatMap WholeRecord.events) =
      ⟨(morph routes).initial, qs.flatMap (record routes), none⟩ := by
  unfold Morph.run
  induction qs with
  | nil => rfl
  | cons q rest ih =>
      -- the state after a record is the initial one, so the others start from there
      calc Outcome.each (morph routes).step ((q :: rest).flatMap WholeRecord.events)
            (morph routes).initial
          = (Outcome.each (morph routes).step q.events (morph routes).initial).andThen
              (Outcome.each (morph routes).step (rest.flatMap WholeRecord.events)) := by
            rw [List.flatMap_cons, Outcome.each_append]
        _ = ⟨(morph routes).initial, record routes q ++ rest.flatMap (record routes), none⟩ := by
            rw [each_record hplain, Outcome.andThen_of_none rfl, ih]
        _ = ⟨(morph routes).initial, (q :: rest).flatMap (record routes), none⟩ := by
            rw [List.flatMap_cons]

end Route
end Recast
