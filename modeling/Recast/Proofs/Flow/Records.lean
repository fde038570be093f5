import Recast.Flow.Basic
import Recast.Flow.Program
import Recast.Proofs.Graph.Encoding
import Recast.Proofs.Morph.Reset
import Recast.Proofs.Skip.Kept
import Recast.Proofs.Stream.Content

/-!
# Records — records on their way to the encoder

Skip rules, program and encoder treat each record by itself.  A program forgets everything when a
record starts, so what it makes of a whole record does not depend on what came before:
`Program.each_record_alike`.  What it hands on for a record that it does not refuse ends with the end
of the record: `Program.out_endRecord`.  The main statement is `Flow.passAll_eq_merge`: the models of
whole records are merged from left to right, and the first record that is refused alone is the reason
for refusing them all.
-/

namespace Recast

/-! ## Programs at the start and the end of a record -/

namespace Program

def Anyhow (_ _ : Morph.State) : Prop := True

/-- What becomes of a whole record does not depend on the state in which the program finds it. -/
theorem each_record_alike (p : Program) (q : WholeRecord) (s t : Morph.State) :
    Outcome.Alike Anyhow (Outcome.each p.step q.events s) (Outcome.each p.step q.events t) := by
  cases p with
  | identity => exact Outcome.Alike.each (fun e _ _ h => .hand h e) q.events trivial
  | morph script m built =>
      -- the first event clears both states, and from there on nothing tells them apart
      have hrecord := (Outcome.Alike.hand (Morph.same_reset (m := m) s t)
        (.startRecord q.id)).andThen fun s' t' h => Outcome.Alike.each
          (fun e _ _ h => Morph.step_same e h) (q.content.events ++ [.endRecord]) h
      exact ⟨hrecord.out, hrecord.refusal, trivial⟩

/-- The end of a record is the last that is handed on for it. -/
theorem out_endRecord (p : Program) (s : Morph.State) (h : (p.step .endRecord s).refusal = none) :
    ∃ es, (p.step .endRecord s).out = es ++ [.endRecord] := by
  cases p with
  | identity => exact ⟨[], rfl⟩
  | morph script m built =>
      simp only [step, Morph.step] at h ⊢
      cases hf : (Outcome.each (Morph.flush m) m.collectors.zipIdx s).refusal with
      | some r =>
          rw [Outcome.andThen_of_refusal hf, hf] at h
          exact absurd h (by simp)
      | none =>
          rw [Outcome.andThen_of_none hf]
          exact ⟨_, rfl⟩

/-- What is handed on for a whole record finishes with its end. -/
theorem out_record (p : Program) (q : WholeRecord) (s : Morph.State)
    (h : (Outcome.each p.step q.events s).refusal = none) :
    ∃ es, (Outcome.each p.step q.events s).out = es ++ [.endRecord] := by
  have hsplit : q.events = (.startRecord q.id :: q.content.events) ++ [.endRecord] := rfl
  rw [hsplit, Outcome.each_append] at h ⊢
  cases hbody : (Outcome.each p.step (.startRecord q.id :: q.content.events) s).refusal with
  | some r =>
      rw [Outcome.andThen_of_refusal hbody, hbody] at h
      exact absurd h (by simp)
  | none =>
      rw [Outcome.andThen_of_none hbody, Outcome.each_singleton] at h ⊢
      obtain ⟨es, hes⟩ := out_endRecord p _ h
      exact ⟨_ ++ es, by rw [hes, List.append_assoc]⟩

end Program

namespace Flow

/-- What becomes of a record that passes skip rules, program and encoder alone. -/
def passAlone (rules : SkipRules) (p : Program) (d : DataModel) (q : WholeRecord) :
    Except Refusal Model :=
  (pass rules p d q.events).result

def passAll (rules : SkipRules) (p : Program) (d : DataModel) (qs : List WholeRecord) :
    Except Refusal Model :=
  (pass rules p d (qs.flatMap WholeRecord.events)).result

/-- What the program and the encoder make of events that have been kept. -/
def encodeFrom (p : Program) (d : DataModel) (running : Morph.State) (encoding : Encoder.State)
    (kept : List Event) : Except Refusal Model :=
  let transformed := Outcome.each p.step kept running
  let encoded := Outcome.each (Encoder.step d) transformed.out encoding
  match encoded.refusal.or transformed.refusal with
  | some r => .error r
  | none => .ok encoded.state.model

variable (rules : SkipRules) (p : Program) (d : DataModel)

/-! ## One kept record -/

/-- A kept record on top of a model: its own model is merged, or it is refused as it is alone. -/
theorem encodeFrom_append (q : WholeRecord) (more : List Event) (running : Morph.State)
    {m : Model} {encoding : Encoder.State} (h : Encoder.Above m encoding Encoder.initial) :
    (∃ r, encodeFrom p d p.initial Encoder.initial q.events = .error r ∧
        encodeFrom p d running encoding (q.events ++ more) = .error r) ∨
      ∃ n running' encoding',
        encodeFrom p d p.initial Encoder.initial q.events = .ok n ∧
          Encoder.Above (m.merge n) encoding' Encoder.initial ∧
          encodeFrom p d running encoding (q.events ++ more) =
            encodeFrom p d running' encoding' more := by
  -- the program starts afresh, and the encoder works on top of what is there
  have hprogram := p.each_record_alike q running p.initial
  have hencoder := Outcome.Alike.each (fun e _ _ hx => Encoder.step_alike d e hx)
    (Outcome.each p.step q.events running).out h
  simp only [encodeFrom, Outcome.each_append, ← hprogram.out, ← hprogram.refusal]
  cases htransformed : (Outcome.each p.step q.events running).refusal with
  | some r =>
      rw [Outcome.andThen_of_refusal htransformed, htransformed, hencoder.refusal]
      cases (Outcome.each (Encoder.step d) (Outcome.each p.step q.events running).out
        Encoder.initial).refusal with
      | some r' => exact Or.inl ⟨r', rfl, rfl⟩
      | none => exact Or.inl ⟨r, rfl, rfl⟩
  | none =>
      rw [Outcome.andThen_of_none htransformed, Outcome.each_append, ← hencoder.refusal]
      cases hencoded : (Outcome.each (Encoder.step d) (Outcome.each p.step q.events running).out
        encoding).refusal with
      | some r =>
          rw [Outcome.andThen_of_refusal hencoded, hencoded]
          exact Or.inl ⟨r, rfl, rfl⟩
      | none =>
          rw [Outcome.andThen_of_none hencoded]
          refine Or.inr ⟨_, _, _, rfl, ⟨?_, ?_⟩, rfl⟩
          · -- the record has ended, and with it what is remembered of it
            obtain ⟨es, hes⟩ := p.out_record q running htransformed
            rw [hes, Outcome.each_append] at hencoded ⊢
            cases hbody : (Outcome.each (Encoder.step d) es encoding).refusal with
            | some r =>
                rw [Outcome.andThen_of_refusal hbody, hbody] at hencoded
                exact absurd hencoded (by simp)
            | none =>
                rw [Outcome.andThen_of_none hbody, Outcome.each_singleton]
                exact Encoder.record_endRecord _
          · rw [hencoder.state.model]
            exact (Model.merge_empty _).symm

/-! ## Lists of records -/

/-- Merge the models of records from left to right, up to the first record that is refused. -/
def mergeAll (alone : WholeRecord → Except Refusal Model) (m : Model) (qs : List WholeRecord) :
    Except Refusal Model :=
  qs.foldlM (fun acc q => (alone q).map acc.merge) m

/-- A record that is accepted is merged, and the others go on from there. -/
theorem mergeAll_cons_ok {alone : WholeRecord → Except Refusal Model} {q : WholeRecord} {n : Model}
    (h : alone q = .ok n) (m : Model) (qs : List WholeRecord) :
    mergeAll alone m (q :: qs) = mergeAll alone (m.merge n) qs := by
  simp [mergeAll, h, Except.map, bind, Except.bind]

theorem mergeAll_cons_error {alone : WholeRecord → Except Refusal Model} {q : WholeRecord}
    {r : Refusal} (h : alone q = .error r) (m : Model) (qs : List WholeRecord) :
    mergeAll alone m (q :: qs) = .error r := by
  simp [mergeAll, h, Except.map, bind, Except.bind]

/-- The merge of records that all have a model. -/
theorem mergeAll_of_ok {alone : WholeRecord → Except Refusal Model} {qs : List WholeRecord}
    {ms : List Model} (h : qs.map alone = ms.map .ok) (m : Model) :
    mergeAll alone m qs = .ok (ms.foldl Model.merge m) := by
  induction qs generalizing ms m with
  | nil =>
      have hnil : ms = [] := by simpa using h.symm
      rw [hnil]
      rfl
  | cons q rest ih =>
      cases ms with
      | nil => exact absurd h (by simp)
      | cons n more =>
          obtain ⟨hfirst, hrest⟩ : alone q = .ok n ∧ rest.map alone = more.map .ok := by
            simpa using h
          rw [mergeAll_cons_ok hfirst]
          exact ih hrest _

/-- The first record that is refused decides what is reported. -/
theorem mergeAll_of_error {alone : WholeRecord → Except Refusal Model} {before : List WholeRecord}
    {q : WholeRecord} {r : Refusal} (hbefore : ∀ b ∈ before, ∃ n, alone b = .ok n)
    (h : alone q = .error r) (after : List WholeRecord) (m : Model) :
    mergeAll alone m (before ++ q :: after) = .error r := by
  induction before generalizing m with
  | nil => exact mergeAll_cons_error h m after
  | cons b rest ih =>
      obtain ⟨n, hn⟩ := hbefore b List.mem_cons_self
      rw [List.cons_append, mergeAll_cons_ok hn]
      exact ih (fun c hc => hbefore c (List.mem_cons_of_mem b hc)) _

/-- There is a merged model if and only if every record has one alone. -/
theorem mergeAll_ok_iff {alone : WholeRecord → Except Refusal Model} {qs : List WholeRecord}
    {m : Model} :
    (∃ n, mergeAll alone m qs = .ok n) ↔ ∀ q ∈ qs, ∃ n, alone q = .ok n := by
  induction qs generalizing m with
  | nil => simp [mergeAll, pure, Except.pure]
  | cons q rest ih =>
      cases hq : alone q with
      | ok n => rw [mergeAll_cons_ok hq, ih, List.forall_mem_cons, hq]; simp
      | error r => rw [mergeAll_cons_error hq, List.forall_mem_cons, hq]; simp

/-- Encoding records one after the other merges what each of them gives alone. -/
theorem encodeFrom_records (qs : List WholeRecord) (running : Morph.State) {m : Model}
    {encoding : Encoder.State} (h : Encoder.Above m encoding Encoder.initial) :
    encodeFrom p d running encoding (qs.flatMap WholeRecord.events) =
      mergeAll (fun q => encodeFrom p d p.initial Encoder.initial q.events) m qs := by
  induction qs generalizing running m encoding with
  | nil =>
      have hmodel : encoding.model = m := by
        rw [h.model]
        exact Model.merge_empty m
      simp [encodeFrom, mergeAll, Outcome.quiet, hmodel, pure, Except.pure]
  | cons q rest ih =>
      rw [List.flatMap_cons]
      -- either this record is refused and ends all, or the rest begins on what it has left
      rcases encodeFrom_append p d q (rest.flatMap WholeRecord.events) running h with
        ⟨r, halone, hall⟩ | ⟨n, running', encoding', halone, habove, hall⟩
      · rw [hall, mergeAll_cons_error halone]
      · rw [hall, mergeAll_cons_ok halone]
        exact ih running' habove

/-- A record that is left out adds nothing, and one that is kept adds what is left of it. -/
theorem passAlone_eq (q : WholeRecord) :
    passAlone rules p d q =
      match rules.keep? q with
      | some k => encodeFrom p d p.initial Encoder.initial k.events
      | none => .ok .empty := by
  obtain ⟨t, hkept, -⟩ := rules.each_record q SkipRules.initial
  have hpass : passAlone rules p d q = encodeFrom p d p.initial Encoder.initial
      (Outcome.each rules.step q.events SkipRules.initial).out := rfl
  rw [hpass, hkept]
  cases rules.keep? q with
  | some k => simp
  | none => rfl

/-- Passing records together merges what each of them gives alone. -/
theorem passAll_eq_mergeAll (qs : List WholeRecord) :
    passAll rules p d qs = mergeAll (passAlone rules p d) .empty qs := by
  obtain ⟨t, hkept, -⟩ := rules.each_records qs SkipRules.initial
  have hpass : passAll rules p d qs = encodeFrom p d p.initial Encoder.initial
      (Outcome.each rules.step (qs.flatMap WholeRecord.events) SkipRules.initial).out := rfl
  rw [hpass, hkept, encodeFrom_records p d _ _ (m := .empty) ⟨rfl, rfl⟩]
  generalize Model.empty = m
  clear hkept hpass
  induction qs generalizing m with
  | nil => rfl
  | cons q rest ih =>
      have halone := passAlone_eq rules p d q
      cases hk : rules.keep? q with
      | none =>
          -- a record that is left out has the empty model alone
          rw [hk] at halone
          rw [List.filterMap_cons_none hk, mergeAll_cons_ok halone, Model.merge_empty]
          exact ih m
      | some k =>
          -- what is left of a record decides, for all of them together as for the record alone
          rw [hk] at halone
          rw [List.filterMap_cons_some hk]
          cases he : encodeFrom p d p.initial Encoder.initial k.events with
          | error r => rw [mergeAll_cons_error he, mergeAll_cons_error (halone.trans he)]
          | ok n =>
              rw [mergeAll_cons_ok he, mergeAll_cons_ok (halone.trans he)]
              exact ih _

/-- Records do not disturb each other.  A list of whole records passes exactly if each of them passes
alone; its model is then that of the records merged from left to right, and otherwise it is refused
as the first record that does not pass alone is. -/
theorem passAll_eq_merge (qs : List WholeRecord) :
    ((∃ m, passAll rules p d qs = .ok m) ↔ ∀ q ∈ qs, ∃ m, passAlone rules p d q = .ok m) ∧
      (∀ ms : List Model, qs.map (passAlone rules p d) = ms.map .ok →
        passAll rules p d qs = .ok (ms.foldl Model.merge .empty)) ∧
      ∀ (before : List WholeRecord) (q : WholeRecord) (after : List WholeRecord) (r : Refusal),
        qs = before ++ q :: after → (∀ b ∈ before, ∃ m, passAlone rules p d b = .ok m) →
          passAlone rules p d q = .error r → passAll rules p d qs = .error r := by
  rw [passAll_eq_mergeAll]
  refine ⟨mergeAll_ok_iff, fun ms hms => mergeAll_of_ok hms .empty, ?_⟩
  intro before q after r hqs hbefore hq
  rw [hqs]
  exact mergeAll_of_error hbefore hq after .empty

end Flow
end Recast
