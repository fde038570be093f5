import Recast.Proofs.Morph.Log

/-!
# Layer — collectors that are flushed in time

In a layered program no pipe leads from a collector to itself or to one in front of it.  Flushing the
collectors in their order then never gives a value to one that has been flushed before: what a
collector holds when it is flushed is all that it is given in the record, and whatever a collector
emits meets every pipe that listens to it.

* `Morph.Layered` — where the pipes of a program lead;
* `Morph.Beyond` — what can happen behind a collector;
* `Morph.Timely`, `Morph.Complete` — the log of a record: `Morph.timely_record`,
  `Morph.complete_record`.
-/

namespace Recast
namespace Morph

/-- No pipe listens to what another one emits, and what a collector emits comes to collectors behind
it only. -/
structure Layered (m : Morph) : Prop where
  names : ∀ c ∈ m.collectors, Script.isVariable c.name = true
  outputs : ∀ p ∈ m.pipes, ∀ name, p.output = .emit name → Script.isVariable name = true →
    ∀ r ∈ m.pipes, Source.accepts r.source name = false
  forward : ∀ i c, m.collectors[i]? = some c → ∀ p ∈ m.pipes,
    Source.accepts p.source c.name = true → ∀ k input, p.output = .gather k input → i < k

variable {m : Morph}

/-! ## What can happen behind a collector -/

/-- Nothing happens to the collectors in front of a place, and none is flushed. -/
def Beyond (m : Morph) (place : Nat) : Happening → Prop
  | .met pipe _ _ => ∀ p k input, m.pipes[pipe]? = some p → p.output = .gather k input → place ≤ k
  | .emitted k _ => place ≤ k
  | .flushed _ _ => False

def flushes (log : List Happening) : List Nat :=
  log.filterMap fun h => match h with
    | .flushed k _ => some k
    | _ => none

theorem flushes_append (l l' : List Happening) : flushes (l ++ l') = flushes l ++ flushes l' := by
  simp [flushes]

theorem mem_flushes (before after : List Happening) (k : Nat) (held : Collector.Memory) :
    k ∈ flushes (before ++ .flushed k held :: after) := by
  simp [flushes]

/-- No collector is flushed behind its place in what only concerns later places. -/
theorem flushes_of_beyond {place : Nat} {l : List Happening} (h : ∀ x ∈ l, Beyond m place x) :
    flushes l = [] := by
  refine List.filterMap_eq_nil_iff.2 fun x hx => ?_
  cases x with
  | met pipe value result => rfl
  | emitted k value => rfl
  | flushed k held => exact (h _ hx).elim

/-- Nothing is delivered to a collector in what only concerns later places. -/
theorem deliveries_of_beyond {place k : Nat} (hk : k < place) {l : List Happening}
    (h : ∀ x ∈ l, Beyond m place x) : m.deliveries k l = [] := by
  refine List.filterMap_eq_nil_iff.2 fun d hd => ?_
  obtain ⟨x, hx, hdelivery⟩ := List.mem_filterMap.1 hd
  unfold delivery? at hdelivery
  split at hdelivery
  · split at hdelivery
    · rename_i hp
      obtain rfl := Option.some.inj hdelivery
      have hle := h _ hx _ _ _ hp rfl
      exact if_neg (by omega)
    · cases hdelivery
  · cases hdelivery

theorem Beyond.mono {place place' : Nat} (hle : place' ≤ place) {x : Happening}
    (h : Beyond m place x) : Beyond m place' x := by
  cases x with
  | met pipe value result => exact fun p k input hp houtput => Nat.le_trans hle (h p k input hp houtput)
  | emitted k value => exact Nat.le_trans hle h
  | flushed k held => exact h

/-- Nothing happens to what a pipe emits. -/
theorem Layered.emitLog_output (hm : m.Layered) {p : Pipe} (hp : p ∈ m.pipes) {name : String}
    (houtput : p.output = .emit name) (levels : Nat) (value : String) (s : State) :
    emitLog (dispatchLog m levels) name value s = [] := by
  unfold emitLog
  split
  · rename_i hvariable
    cases levels with
    | zero => rfl
    | succ levels =>
        -- what a rule emits under a variable is heard by no rule
        have hnone : m.listeners name = [] := by
          rw [listeners_eq]
          refine List.filter_eq_nil_iff.2 fun q hq => ?_
          have hmem := List.mem_of_getElem? (List.mem_zipIdx_iff_getElem?.1 hq)
          simp [hm.outputs p hp name houtput hvariable q.1 hmem]
        rw [dispatchLog, hnone]
        rfl
  · rfl

/-- What happens to a value under a path stays behind the collectors that are fed from there. -/
theorem Layered.beyond_dispatch (hm : m.Layered) (levels : Nat) {place : Nat} {path : String}
    (hplace : ∀ p ∈ m.pipes, Source.accepts p.source path = true → ∀ k input,
      p.output = .gather k input → place ≤ k) (value : String) (s : State) :
    ∀ x ∈ dispatchLog m levels path value s, Beyond m place x := by
  -- by induction on the levels: what is emitted on the way is beyond the place again
  induction levels generalizing path value s with
  | zero => simp [dispatchLog]
  | succ levels ih =>
      intro x hx
      obtain ⟨p, hp, s', hx⟩ := mem_eachLog hx
      obtain ⟨hplaced, haccepts⟩ := mem_listeners hp
      have hmem : p.1 ∈ m.pipes := List.mem_of_getElem? hplaced
      have hmet : ∀ result, Beyond m place (.met p.2 value result) := by
        intro result q k input hq houtput
        obtain rfl := Option.some.inj (hplaced.symm.trans hq)
        exact hplace p.1 hmem haccepts k input houtput
      have hrun := pipeRun m (emitTo (dispatch m levels)) (emitLog (dispatchLog m levels)) value p s'
      generalize runPipe m (emitTo (dispatch m levels)) value p s' = o,
        pipeLog m (emitLog (dispatchLog m levels)) value p s' = l at hrun hx
      -- one case for each end that a value can come to
      cases hrun with
      | dropped _ | lost _ _ _ | kept _ _ _ =>
          obtain rfl := List.mem_singleton.1 hx
          exact hmet _
      | emits houtput _ =>
          rw [hm.emitLog_output hmem houtput] at hx
          obtain rfl := List.mem_singleton.1 hx
          exact hmet _
      | @answered s' k input v w c houtput hc _ =>
          have hle : place ≤ k := hplace p.1 hmem haccepts k input houtput
          rcases List.mem_cons.1 hx with rfl | hx
          · exact hmet _
          rcases List.mem_cons.1 hx with rfl | hx
          · exact hle
          · -- the collector that answered is heard by rules of later collectors only
            rw [emitLog, if_pos (hm.names c (List.mem_of_getElem? hc))] at hx
            refine ih (fun q hq hqaccepts k' input' hqoutput => ?_) w s' x hx
            exact Nat.le_trans hle (Nat.le_of_lt (hm.forward k c hc q hq hqaccepts k' input' hqoutput))

/-- What happens to a value that a collector emits stays behind the collector. -/
theorem Layered.beyond_emitLog (hm : m.Layered) (levels : Nat) {i : Nat} {c : NamedCollector}
    (hc : m.collectors[i]? = some c) (value : String) (s : State) :
    ∀ x ∈ emitLog (dispatchLog m levels) c.name value s, Beyond m (i + 1) x := by
  rw [emitLog, if_pos (hm.names c (List.mem_of_getElem? hc))]
  exact hm.beyond_dispatch levels (hm.forward i c hc) value s

/-- When a collector is flushed, it emits what it has for the end of the record, and whatever else
happens stays behind it. -/
theorem Layered.flushLog_cases (hm : m.Layered) {i : Nat} {c : NamedCollector}
    (hc : m.collectors[i]? = some c) (s : State) :
    ∃ rest, flushLog m (c, i) s = .flushed i (s.gathered.getD i []) :: rest ∧
      (∀ x ∈ rest, Beyond m i x) ∧ m.deliveries i rest = [] ∧
      ∀ v, c.collector.flush (s.gathered.getD i []) = some v → .emitted i v ∈ rest.head? := by
  refine ⟨_, rfl, ?_⟩
  dsimp only
  cases c.collector.flush (s.gathered.getD i []) with
  | none => exact ⟨by simp, rfl, by simp⟩
  | some v =>
      have hbeyond := hm.beyond_emitLog Refusal.maxDepth hc v s
      refine ⟨List.forall_mem_cons.2 ⟨Nat.le_refl i, fun x hx => (hbeyond x hx).mono (Nat.le_succ i)⟩,
        ?_, by simp⟩
      rw [deliveries_emitted]
      exact deliveries_of_beyond (Nat.lt_succ_self i) hbeyond

/-! ## Nothing comes late -/

/-- Whenever a collector is flushed, it holds what it held at first and what has been delivered to
it; it emits what it has for the end of the record, and nothing is delivered to it any more. -/
def Due (m : Morph) (k : Nat) (c : NamedCollector) (first : Collector.Memory)
    (log : List Happening) : Prop :=
  ∀ before held after, log = before ++ .flushed k held :: after →
    held = heldAfter c first (m.deliveries k before) ∧ m.deliveries k after = [] ∧
      ∀ v, c.collector.flush held = some v → .emitted k v ∈ after.head?

/-- An element of two lists one after the other stands in the first or in the second. -/
theorem cut_append {α : Type u} {l l' before after : List α} {a : α}
    (h : l ++ l' = before ++ a :: after) :
    (∃ between, l = before ++ a :: between ∧ after = between ++ l') ∨
      ∃ between, before = l ++ between ∧ l' = between ++ a :: after := by
  rcases List.append_eq_append_iff.1 h with ⟨between, rfl, hl'⟩ | ⟨between, rfl, hcons⟩
  · exact .inr ⟨between, rfl, hl'⟩
  · cases between with
    | nil => exact .inr ⟨[], by simp, by simpa using hcons.symm⟩
    | cons b between =>
        obtain ⟨rfl, rfl⟩ := List.cons.inj hcons
        exact .inl ⟨between, rfl, rfl⟩

variable {k : Nat} {c : NamedCollector} {l l' : List Happening}

theorem Due.append {first : Collector.Memory} (h : Due m k c first l)
    (h' : Due m k c (heldAfter c first (m.deliveries k l)) l')
    (hlate : k ∈ flushes l → m.deliveries k l' = []) : Due m k c first (l ++ l') := by
  intro before held after heq
  rcases cut_append heq with ⟨between, rfl, rfl⟩ | ⟨between, rfl, hl'⟩
  · -- the flush is in the first part
    obtain ⟨hheld, hnone, hemitted⟩ := h before held between rfl
    have hlater : m.deliveries k l' = [] := hlate (mem_flushes before between k held)
    refine ⟨hheld, ?_, ?_⟩
    · rw [deliveries_append, hnone, hlater, List.append_nil]
    · intro v hv
      rw [List.head?_append, Option.mem_def.1 (hemitted v hv)]
      rfl
  · -- the flush is in the second part, which starts with what the first one has left
    obtain ⟨hheld, hnone, hemitted⟩ := h' between held after hl'
    refine ⟨?_, hnone, hemitted⟩
    calc held
        = heldAfter c (heldAfter c first (m.deliveries k l)) (m.deliveries k between) := hheld
      _ = heldAfter c first (m.deliveries k l ++ m.deliveries k between) := by
          rw [heldAfter, heldAfter, heldAfter, List.foldl_append]
      _ = heldAfter c first (m.deliveries k (l ++ between)) := by rw [deliveries_append]

/-- Where a collector is not flushed there is nothing to be due. -/
theorem due_of_not_mem {first : Collector.Memory} (h : k ∉ flushes l) : Due m k c first l := by
  rintro before held after rfl
  exact absurd (mem_flushes before after k held) h

/-! ## Flushing the collectors -/

section Flushing

/-- Some collectors of a program with their places, from a place on. -/
def From (m : Morph) (place : Nat) (cs : List NamedCollector) : Prop :=
  ∀ d ∈ cs.zipIdx place, m.collectors[d.2]? = some d.1

theorem From.head {place : Nat} {c : NamedCollector} {cs : List NamedCollector}
    (h : From m place (c :: cs)) : m.collectors[place]? = some c :=
  h (c, place) (by simp)

theorem From.tail {place : Nat} {c : NamedCollector} {cs : List NamedCollector}
    (h : From m place (c :: cs)) : From m (place + 1) cs :=
  fun d hd => h d (by rw [List.zipIdx_cons]; exact List.mem_cons_of_mem _ hd)

/-- The collectors of a program stand at their places. -/
theorem from_collectors (m : Morph) : From m 0 m.collectors :=
  fun _ hd => List.mem_zipIdx_iff_getElem?.1 hd

/-- Flushing collectors gives nothing to those up to the first of them. -/
theorem Layered.deliveries_flushes (hm : m.Layered) {place : Nat} {cs : List NamedCollector}
    (hcs : From m place cs) (hk : k ≤ place) (s : State) :
    m.deliveries k (eachLog (flush m) (flushLog m) (cs.zipIdx place) s) = [] := by
  induction cs generalizing place s with
  | nil => rfl
  | cons c rest ih =>
      obtain ⟨more, hlog, hbeyond, hnone, -⟩ := hm.flushLog_cases hcs.head s
      -- the first flush reaches no collector at or before the place
      have hfirst : m.deliveries k (flushLog m (c, place) s) = [] := by
        rw [hlog, deliveries_flushed]
        rcases Nat.lt_or_eq_of_le hk with hlt | rfl
        · exact deliveries_of_beyond hlt hbeyond
        · exact hnone
      rw [List.zipIdx_cons, eachLog, deliveries_append, hfirst, List.nil_append]
      split
      · rfl
      · exact ih hcs.tail (by omega) _

/-- Flushing one collector flushes no other one. -/
theorem Layered.flushes_flushLog (hm : m.Layered) {i : Nat} (hc : m.collectors[i]? = some c)
    (s : State) : flushes (flushLog m (c, i) s) = [i] := by
  obtain ⟨more, hlog, hbeyond, -⟩ := hm.flushLog_cases hc s
  rw [hlog]
  exact congrArg (i :: ·) (flushes_of_beyond hbeyond)

/-- Flushing a collector gives what is due, and nothing comes late to it. -/
theorem Layered.due_flushLog (hm : m.Layered) {i : Nat} {d : NamedCollector}
    (hd : m.collectors[i]? = some d) (hk : m.collectors[k]? = some c) (s : State) :
    Due m k c (s.gathered.getD k []) (flushLog m (d, i) s) := by
  obtain ⟨more, hlog, hbeyond, hnone, hemitted⟩ := hm.flushLog_cases hd s
  rw [hlog]
  intro before held after heq
  cases before with
  | nil =>
      obtain ⟨hfirst, rfl⟩ := List.cons.inj heq
      obtain ⟨rfl, rfl⟩ := Happening.flushed.inj hfirst
      obtain rfl := Option.some.inj (hd.symm.trans hk)
      exact ⟨rfl, hnone, hemitted⟩
  | cons x before =>
      -- nothing that happens behind a collector is a flush
      rw [List.cons_append] at heq
      obtain ⟨-, rfl⟩ := List.cons.inj heq
      have hnever := flushes_of_beyond hbeyond
      have hmem := mem_flushes before after k held
      rw [hnever] at hmem
      cases hmem

/-- Flushing collectors one after the other, each of them is flushed in time. -/
theorem Layered.due_flushes (hm : m.Layered) (hk : m.collectors[k]? = some c) {place : Nat}
    {cs : List NamedCollector} (hcs : From m place cs) {s : State}
    (hs : k < s.gathered.length) :
    Due m k c (s.gathered.getD k []) (eachLog (flush m) (flushLog m) (cs.zipIdx place) s) := by
  induction cs generalizing place s with
  | nil => exact due_of_not_mem (by simp [eachLog, flushes])
  | cons d rest ih =>
      -- the first flush leaves to the others what it has gathered in the meantime
      have hreplay := Replay.flushed hk (d, place) s
      rw [List.zipIdx_cons, eachLog]
      refine (hm.due_flushLog hcs.head hk s).append ?_ ?_
      · split
        · exact due_of_not_mem (by simp [flushes])
        · rw [← hreplay.held hs]
          exact ih hcs.tail (by rw [hreplay.length]; exact hs)
      · -- behind its own flush a collector gets nothing
        intro hflushed
        rw [hm.flushes_flushLog hcs.head, List.mem_singleton] at hflushed
        split
        · rfl
        · exact hm.deliveries_flushes hcs.tail (by omega) _

/-- If none is refused, all collectors are flushed, in their order. -/
theorem Layered.flushes_eq (hm : m.Layered) {place : Nat} {cs : List NamedCollector}
    (hcs : From m place cs) {s : State}
    (h : (Outcome.each (flush m) (cs.zipIdx place) s).refusal = none) :
    flushes (eachLog (flush m) (flushLog m) (cs.zipIdx place) s) =
      List.range' place cs.length := by
  induction cs generalizing place s with
  | nil => rfl
  | cons c rest ih =>
      rw [List.zipIdx_cons] at h ⊢
      obtain ⟨hc, hrest⟩ := Outcome.refusal_each_cons.1 h
      calc flushes (eachLog (flush m) (flushLog m) ((c, place) :: rest.zipIdx (place + 1)) s)
          = flushes (flushLog m (c, place) s) ++ flushes (eachLog (flush m) (flushLog m)
              (rest.zipIdx (place + 1)) (flush m (c, place) s).state) := by
            rw [eachLog_cons_of_none hc, flushes_append]
        _ = [place] ++ List.range' (place + 1) rest.length := by
            -- what the first flush sets off flushes no collector again
            rw [hm.flushes_flushLog hcs.head, ih hcs.tail hrest]
        _ = List.range' place (c :: rest).length := by
            rw [List.length_cons, List.range'_succ, List.singleton_append]

end Flushing

/-! ## Nothing is lost -/

def emittedBy (i : Nat) (log : List Happening) : List String :=
  log.filterMap fun h => match h with
    | .emitted k v => if k = i then some v else none
    | _ => none

def metBy (place : Nat) (log : List Happening) : List String :=
  log.filterMap fun h => match h with
    | .met pipe v _ => if pipe = place then some v else none
    | _ => none

theorem emittedBy_append (i : Nat) (l l' : List Happening) :
    emittedBy i (l ++ l') = emittedBy i l ++ emittedBy i l' := by
  simp [emittedBy]

theorem metBy_append (place : Nat) (l l' : List Happening) :
    metBy place (l ++ l') = metBy place l ++ metBy place l' := by
  simp [metBy]

/-- A collector emits nothing in what only concerns later places. -/
theorem emittedBy_of_beyond {i place : Nat} (hi : i < place) (h : ∀ x ∈ l, Beyond m place x) :
    emittedBy i l = [] := by
  refine List.filterMap_eq_nil_iff.2 fun x hx => ?_
  cases x with
  | met pipe value result => rfl
  | emitted k value =>
      have hle : place ≤ k := h _ hx
      exact if_neg (by omega)
  | flushed k held => rfl

/-- What a collector emits meets a pipe. -/
def Fed (i place : Nat) (log : List Happening) : Prop :=
  (emittedBy i log).Sublist (metBy place log)

theorem Fed.append {i place : Nat} (h : Fed i place l) (h' : Fed i place l') :
    Fed i place (l ++ l') := by
  rw [Fed, emittedBy_append, metBy_append]
  exact List.Sublist.append h h'

theorem Fed.of_none {i place : Nat} (h : emittedBy i l = []) : Fed i place l := by
  rw [Fed, h]
  exact List.nil_sublist _

/-- A value meets every pipe that listens to its path, if nothing is refused. -/
theorem met_of_accepts {place : Nat} {p : Pipe} (hp : m.pipes[place]? = some p) {path : String}
    (haccepts : Source.accepts p.source path = true) (levels : Nat) {value : String} {s : State}
    (h : (dispatch m levels path value s).refusal = none) :
    [value].Sublist (metBy place (dispatchLog m levels path value s)) := by
  cases levels with
  | zero => cases h
  | succ levels =>
      obtain ⟨s', hsub⟩ : ∃ s', (pipeLog m (emitLog (dispatchLog m levels)) value (p, place) s').Sublist
          (dispatchLog m (levels + 1) path value s) :=
        sublist_eachLog h (mem_listeners_of_accepts hp haccepts)
      have hmet : [value].Sublist
          (metBy place (pipeLog m (emitLog (dispatchLog m levels)) value (p, place) s')) := by
        unfold pipeLog
        split <;> simp [metBy]
      exact hmet.trans (hsub.filterMap _)

section Feeding

variable {i place : Nat} {p : Pipe}

/-- What a collector emits meets the pipes that listen to it, if that is so for all that comes of
it. -/
theorem Layered.fed_emission (hm : m.Layered) (hi : m.collectors[i]? = some c)
    (hp : m.pipes[place]? = some p) (haccepts : Source.accepts p.source c.name = true)
    {levels : Nat} (hdispatch : ∀ path value s, (dispatch m levels path value s).refusal = none →
      Fed i place (dispatchLog m levels path value s)) {c' : NamedCollector}
    (hk : m.collectors[k]? = some c') {value : String} {s : State}
    (h : (emitTo (dispatch m levels) c'.name value s).refusal = none) :
    Fed i place (.emitted k value :: emitLog (dispatchLog m levels) c'.name value s) := by
  have hvariable := hm.names c' (List.mem_of_getElem? hk)
  have hbeyond := hm.beyond_emitLog levels hk value s
  rw [emitTo, if_pos hvariable] at h
  rw [emitLog, if_pos hvariable] at hbeyond ⊢
  by_cases hki : k = i
  · subst hki
    obtain rfl := Option.some.inj (hi.symm.trans hk)
    -- the collector emits nothing else in between
    have hown : emittedBy k (.emitted k value :: dispatchLog m levels c.name value s) = [value] := by
      have hnone := emittedBy_of_beyond (Nat.lt_succ_self k) hbeyond
      unfold emittedBy at hnone ⊢
      simp [hnone]
    rw [Fed, hown]
    exact met_of_accepts hp haccepts levels h
  · have hother : Fed i place [.emitted k value] := .of_none (by simp [emittedBy, hki])
    exact hother.append (hdispatch c'.name value s h)

/-- What is dispatched without a refusal feeds every pipe that listens. -/
theorem Layered.fed_dispatch (hm : m.Layered) (hi : m.collectors[i]? = some c)
    (hp : m.pipes[place]? = some p) (haccepts : Source.accepts p.source c.name = true)
    (levels : Nat) (path value : String) (s : State)
    (h : (dispatch m levels path value s).refusal = none) :
    Fed i place (dispatchLog m levels path value s) := by
  -- by induction on the levels: a value is lost only where the dispatch is refused
  induction levels generalizing path value s with
  | zero => cases h
  | succ levels ih =>
      refine eachLog_of_append (.of_none rfl) (fun _ _ h h' => h.append h') ?_ h
      intro q hq s' hnone
      have hmem : q.1 ∈ m.pipes := List.mem_of_getElem? (mem_listeners hq).1
      have hmet : ∀ result, Fed i place [.met q.2 value result] := fun _ => .of_none rfl
      have hrun := pipeRun m (emitTo (dispatch m levels)) (emitLog (dispatchLog m levels)) value q s'
      generalize runPipe m (emitTo (dispatch m levels)) value q s' = o,
        pipeLog m (emitLog (dispatchLog m levels)) value q s' = l at hrun hnone
      cases hrun with
      | dropped _ | lost _ _ _ | kept _ _ _ => exact hmet _
      | emits houtput _ =>
          rw [hm.emitLog_output hmem houtput]
          exact hmet _
      | answered _ hc _ =>
          exact (hmet _).append (hm.fed_emission hi hp haccepts (fun path v s => ih path v s) hc hnone)

/-- Flushing a collector without a refusal feeds every pipe that listens. -/
theorem Layered.fed_flush (hm : m.Layered) (hi : m.collectors[i]? = some c)
    (hp : m.pipes[place]? = some p) (haccepts : Source.accepts p.source c.name = true)
    {d : NamedCollector × Nat} (hd : m.collectors[d.2]? = some d.1) {s : State}
    (h : (flush m d s).refusal = none) : Fed i place (flushLog m d s) := by
  have hflushed : Fed i place [.flushed d.2 (s.gathered.getD d.2 [])] := .of_none rfl
  unfold flush at h
  unfold flushLog
  cases hv : d.1.collector.flush (s.gathered.getD d.2 []) with
  | none => exact hflushed
  | some v =>
      rw [hv] at h
      exact hflushed.append
        (hm.fed_emission hi hp haccepts (hm.fed_dispatch hi hp haccepts Refusal.maxDepth) hd h)

theorem refusal_endRecord {s : State} (h : (step m .endRecord s).refusal = none) :
    (Outcome.each (flush m) m.collectors.zipIdx s).refusal = none := by
  cases hflush : (Outcome.each (flush m) m.collectors.zipIdx s).refusal with
  | none => rfl
  | some r =>
      rw [step, Outcome.andThen_of_refusal hflush, hflush] at h
      cases h

/-- Whatever events come, what a collector emits meets the pipes that listen to it. -/
theorem Layered.fed_log (hm : m.Layered) (hi : m.collectors[i]? = some c)
    (hp : m.pipes[place]? = some p) (haccepts : Source.accepts p.source c.name = true)
    {es : List Event} {s : State} (h : (Outcome.each m.step es s).refusal = none) :
    Fed i place (m.log es s) := by
  refine eachLog_of_append (.of_none rfl) (fun _ _ h h' => h.append h') ?_ h
  intro e _ s hnone
  cases e with
  | startRecord id => exact .of_none rfl
  | startEntity name => exact .of_none rfl
  | endEntity => exact .of_none rfl
  | literal name value => exact hm.fed_dispatch hi hp haccepts _ _ value s hnone
  | endRecord =>
      refine eachLog_of_append (.of_none rfl) (fun _ _ h h' => h.append h') ?_
        (refusal_endRecord hnone)
      exact fun d hd s hd' => hm.fed_flush hi hp haccepts (from_collectors m d hd) hd'

end Feeding

/-! ## Records -/

/-- Nothing comes late: when a collector is flushed, it holds all that is delivered to it in the log
and emits what becomes of this at the end of a record, and nothing is delivered to it any more. -/
structure Timely (m : Morph) (log : List Happening) : Prop where
  settled : ∀ k c, m.collectors[k]? = some c → ∀ before held after,
    log = before ++ .flushed k held :: after → m.deliveries k after = []
  whole : ∀ k c, m.collectors[k]? = some c → ∀ before held after,
    log = before ++ .flushed k held :: after → held = heldAfter c [] (m.deliveries k log)
  emitted : ∀ k c, m.collectors[k]? = some c → ∀ before held after,
    log = before ++ .flushed k held :: after →
      ∀ v, c.collector.flush held = some v → .emitted k v ∈ after.head?

/-- Nothing is lost: all collectors are flushed, each once and in their order, and what a collector
emits meets every pipe that listens to it. -/
structure Complete (m : Morph) (log : List Happening) : Prop where
  flushed : flushes log = List.range m.collectors.length
  met : ∀ i c place p, m.collectors[i]? = some c → m.pipes[place]? = some p →
    Source.accepts p.source c.name = true → (emittedBy i log).Sublist (metBy place log)

/-- Inside a record no other one starts or ends. -/
theorem ne_endRecord_of_mem {content : Content} {e : Event} (h : e ∈ content.events) :
    e ≠ .endRecord ∧ ∀ id, e ≠ .startRecord id := by
  induction content with
  | done => cases h
  | literal name value rest ih =>
      rcases List.mem_cons.1 h with rfl | h
      · exact ⟨by simp, by simp⟩
      · exact ih h
  | entity name inner rest ihinner ihrest =>
      rcases List.mem_cons.1 h with rfl | h
      · exact ⟨by simp, by simp⟩
      rcases List.mem_append.1 h with h | h
      · exact ihinner h
      rcases List.mem_cons.1 h with rfl | h
      · exact ⟨by simp, by simp⟩
      · exact ihrest h

/-- Inside a record no collector is flushed. -/
theorem Layered.flushes_content (hm : m.Layered) (content : Content) (s : State) :
    flushes (m.log content.events s) = [] := by
  have hbeyond : ∀ x ∈ m.log content.events s, Beyond m 0 x := by
    intro x hx
    obtain ⟨e, he, s', hx⟩ := mem_eachLog hx
    cases e with
    | startRecord id => cases hx
    | startEntity name => cases hx
    | endEntity => cases hx
    | endRecord => exact absurd rfl (ne_endRecord_of_mem he).1
    | literal name value =>
        exact hm.beyond_dispatch _ (fun _ _ _ k _ _ => Nat.zero_le k) value s' x hx
  exact flushes_of_beyond hbeyond

/-- The log of what stands in a record can be replayed. -/
theorem Replay.content (hk : m.collectors[k]? = some c) (content : Content) (s : State) :
    Replay m k c s (m.log content.events s) (Outcome.each m.step content.events s).state := by
  refine Replay.each (fun e he s => ?_) s
  obtain ⟨hend, hstart⟩ := ne_endRecord_of_mem he
  cases e with
  | startRecord id => exact absurd rfl (hstart id)
  | endRecord => exact absurd rfl hend
  | startEntity name => exact .of_eq rfl rfl
  | endEntity =>
      refine .of_eq ?_ rfl
      rw [step]
      split <;> rfl
  | literal name value => exact .dispatched hk _ _ value s

/-- The log of a record is that of its content, from a state that has been cleared, and that of
flushing the collectors. -/
theorem log_record (q : WholeRecord) (s : State) :
    m.log q.events s = m.log q.content.events (m.reset s) ++
      if (Outcome.each m.step q.content.events (m.reset s)).refusal.isSome then [] else
        eachLog (flush m) (flushLog m) m.collectors.zipIdx
          (Outcome.each m.step q.content.events (m.reset s)).state := by
  have hstart : (m.step (.startRecord q.id) s).refusal = none := rfl
  have hlast : ∀ s, eachLog m.step m.stepLog [.endRecord] s =
      eachLog (flush m) (flushLog m) m.collectors.zipIdx s := by
    intro s
    simp [eachLog, stepLog]
  rw [WholeRecord.events, log, eachLog_cons_of_none hstart, eachLog_append, hlast]
  rfl

/-- A record that is not refused is refused neither inside nor at its end. -/
theorem refusal_record {q : WholeRecord} {s : State}
    (h : (Outcome.each m.step q.events s).refusal = none) :
    (Outcome.each m.step q.content.events (m.reset s)).refusal = none ∧
      (Outcome.each (flush m) m.collectors.zipIdx
        (Outcome.each m.step q.content.events (m.reset s)).state).refusal = none := by
  obtain ⟨-, hrest⟩ := Outcome.refusal_each_cons.1 h
  rw [Outcome.each_append] at hrest
  cases hcontent : (Outcome.each m.step q.content.events
      (m.step (.startRecord q.id) s).state).refusal with
  | some r =>
      rw [Outcome.andThen_of_refusal hcontent, hcontent] at hrest
      cases hrest
  | none =>
      rw [Outcome.andThen_of_none hcontent, Outcome.each_singleton] at hrest
      exact ⟨hcontent, refusal_endRecord hrest⟩

/-- After a reset a collector holds nothing. -/
theorem held_reset (s : State) (hk : m.collectors[k]? = some c) :
    k < (m.reset s).gathered.length ∧ (m.reset s).gathered.getD k [] = [] := by
  have hlt := (List.getElem?_eq_some_iff.1 hk).1
  refine ⟨by simpa [reset] using hlt, ?_⟩
  simp only [reset, List.getD_eq_getElem?_getD, List.getElem?_map, List.getElem?_zipIdx, hk,
    Option.map_some, Option.getD_some]
  rfl

/-- In a layered program every collector is flushed in time. -/
theorem Layered.due_record (hm : m.Layered) (hk : m.collectors[k]? = some c) (q : WholeRecord)
    (s : State) : Due m k c [] (m.log q.events s) := by
  obtain ⟨hlt, hempty⟩ := held_reset s hk
  have hreplay := Replay.content hk q.content (m.reset s)
  have hnever : k ∉ flushes (m.log q.content.events (m.reset s)) := by
    simp [hm.flushes_content q.content (m.reset s)]
  rw [log_record]
  refine (due_of_not_mem hnever).append ?_ fun hmem => absurd hmem hnever
  split
  · exact due_of_not_mem (by simp [flushes])
  · rw [← hempty, ← hreplay.held hlt]
    exact hm.due_flushes hk (from_collectors m) (by rw [hreplay.length]; exact hlt)

/-- In a layered program nothing comes late in a record. -/
theorem Layered.timely_record (hm : m.Layered) (q : WholeRecord) (s : State) :
    Timely m (m.log q.events s) where
  settled := by
    intro k c hk before held after heq
    obtain ⟨-, hnone, -⟩ := hm.due_record hk q s before held after heq
    exact hnone
  whole := by
    intro k c hk before held after heq
    obtain ⟨hheld, hnone, -⟩ := hm.due_record hk q s before held after heq
    rw [heq, deliveries_append, deliveries_flushed, hnone, List.append_nil]
    exact hheld
  emitted := by
    intro k c hk before held after heq
    obtain ⟨-, -, hemitted⟩ := hm.due_record hk q s before held after heq
    exact hemitted

/-- In a layered program nothing is lost in a record that is not refused. -/
theorem Layered.complete_record (hm : m.Layered) {q : WholeRecord} {s : State}
    (h : (Outcome.each m.step q.events s).refusal = none) : Complete m (m.log q.events s) where
  flushed := by
    obtain ⟨hcontent, hflush⟩ := refusal_record h
    rw [log_record, flushes_append, hm.flushes_content, hcontent, List.nil_append]
    exact (hm.flushes_eq (from_collectors m) hflush).trans List.range_eq_range'.symm
  met := fun i c place p hi hp haccepts => hm.fed_log hi hp haccepts h

end Morph
end Recast
