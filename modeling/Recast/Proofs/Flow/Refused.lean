import Recast.Flow.Basic
import Recast.Proofs.Decoder.Whole
import Recast.Proofs.Graph.Acceptance
import Recast.Proofs.Morph.Emission
import Recast.Proofs.Result
import Recast.Proofs.Skip.Kept

/-!
# Refused — the events that stop a flow

Decoders hand on whole records, skip rules leave out parts with a beginning and an end, scripts hand
on what they receive in order, and the encoder takes events that are in order.  So the order of
events is never the reason for which a flow comes to nothing: `Flow.refused_literal`.
-/

namespace Recast
namespace Flow

/-- The names and values of literals can stop events that start as whole records do, on their way
through skip rules, program and encoder; so can empty parts of statements, and nothing else. -/
theorem pass_refused (rules : SkipRules) (p : Program) (d : DataModel) (qs : List WholeRecord)
    {r : Refusal} (h : (pass rules p d (qs.flatMap WholeRecord.events)).result = .error r) :
    (∃ part, r = .emptyPart part) ∨
      (∃ name, r = .emptyName name ∧ ∀ c ∈ name.toList, c = '.') ∨ r.OfVariable := by
  obtain ⟨t, hrun, -⟩ := rules.each_records qs SkipRules.initial
  have hkept : (rules.run (qs.flatMap WholeRecord.events)).out =
      (qs.filterMap rules.keep?).flatMap WholeRecord.events := by
    unfold SkipRules.run
    rw [hrun]
  -- what is kept is in order, and so is what the program makes of it
  have hled : (Position.after? (rules.run (qs.flatMap WholeRecord.events)).out .outside).isSome =
      true := by
    rw [hkept, Position.after?_records]
    rfl
  obtain ⟨hhanded, hvariable⟩ := p.run_ordered hled
  simp only [pass] at h
  cases hencoder : (Encoder.run d (p.run (rules.run (qs.flatMap WholeRecord.events)).out).out).refusal with
  | some x =>
      rw [hencoder, Option.some_or] at h
      obtain rfl := Except.error.inj h
      rcases Encoder.each_refusal hhanded x hencoder with hpart | ⟨name, -, -, hname, -, hdots⟩
      · exact .inl hpart
      · exact .inr (.inl ⟨name, hname, hdots⟩)
  | none =>
      rw [hencoder, Option.none_or] at h
      cases hprogram : (p.run (rules.run (qs.flatMap WholeRecord.events)).out).refusal with
      | some x =>
          rw [hprogram] at h
          obtain rfl := Except.error.inj h
          exact .inr (.inr (hvariable x hprogram))
      | none =>
          rw [hprogram] at h
          cases h

/-- Giving records a class can only be refused because a part of a statement is empty. -/
theorem classify_refused {uri : String} {m : Model} {r : Refusal} (h : classify uri m = .error r) :
    ∃ part, r = .emptyPart part := by
  unfold classify at h
  rcases bind_eq_error.1 h with hfold | ⟨m', -, hclass⟩
  · obtain ⟨record, -, m', hstep⟩ := exists_of_foldlM_error hfold
    rcases bind_eq_error.1 hstep with hstatement | ⟨s, -, hadd⟩
    · obtain ⟨part, -, hpart⟩ := mapError_eq_error.1 hstatement
      exact ⟨part, hpart.symm⟩
    · cases hadd
  · cases hclass

/-- If a flow stops at an event, whatever the document, the options of its decoder, the skip rules and
the program, the event is a literal whose name has nothing in it but dots, or a literal that feeds a
variable too often. -/
theorem refused_literal {o : DecoderOptions} {f : Flow} (hf : f.decoder ∈ o.decoders)
    {input : String} {r : Refusal} (h : (f.apply input).result = .error (.transform r))
    (hevent : ∀ part, r ≠ .emptyPart part) :
    r.reason.1 = .literal ∧
      ((∃ name, r = .emptyName name ∧ ∀ c ∈ name.toList, c = '.') ∨
        ∃ v, r = .tooDeep v ∧ Script.isVariable v = true) := by
  obtain ⟨qs, hqs⟩ := DecoderOptions.decode_whole hf input
  -- the refusal comes from the pass over the records or from the class that is put on afterwards
  have hcause : (∃ part, r = .emptyPart part) ∨
      (∃ name, r = .emptyName name ∧ ∀ c ∈ name.toList, c = '.') ∨ r.OfVariable := by
    unfold apply at h
    simp only [hqs] at h
    cases hpass : (pass f.skip f.program f.dataModel (qs.flatMap WholeRecord.events)).result with
    | error x =>
        simp only [hpass] at h
        obtain rfl := FlowError.transform.inj (Except.error.inj h)
        exact pass_refused _ _ _ qs hpass
    | ok m =>
        simp only [hpass] at h
        cases hdecoded : (f.decoder.decode input).result with
        | error e =>
            simp only [hdecoded] at h
            cases h
        | ok count =>
            simp only [hdecoded] at h
            obtain ⟨x, hclassed, hx⟩ := mapError_eq_error.1 h
            obtain rfl := FlowError.transform.inj hx
            unfold classed at hclassed
            split at hclassed
            · exact .inl (classify_refused hclassed)
            · cases hclassed
  rcases hcause with ⟨part, hpart⟩ | ⟨name, rfl, hdots⟩ | ⟨v, rfl, hvariable⟩
  · exact absurd hpart (hevent part)
  · exact ⟨rfl, .inl ⟨name, rfl, hdots⟩⟩
  · exact ⟨rfl, .inr ⟨v, rfl, hvariable⟩⟩

/-- The standard options, with the records of Json text below a key. -/
def below : DecoderOptions := ⟨.standard, .standard, ⟨none, some "d"⟩⟩

/-- A flow that leaves out some entities of the records below the key. -/
def sifting : Flow := ⟨.identity, below.json.decoder, .standard, ⟨["b"], [], []⟩, none⟩

def nameless : String :=
  "\x7b\"d\":[\x7b\"b\":\x7b\"...\":\"x\"\x7d,\"a\":\x7b\"..\":\"y\"\x7d\x7d]\x7d"

theorem refused_literal_nameless :
    (sifting.apply nameless).result = .error (.transform (.emptyName "..")) ∧
      (Refusal.emptyName "..").reason.1 = .literal := by
  have hdecoder : sifting.decoder ∈ below.decoders := .tail _ (.tail _ (.head _))
  have hrefused : (sifting.apply nameless).result = .error (.transform (.emptyName "..")) := by
    decide +kernel
  exact ⟨hrefused, (refused_literal hdecoder hrefused fun part h => by cases h).1⟩

end Flow
end Recast
