import Recast.Morph.Collector
import Recast.Proofs.Morph.Call
import Recast.Proofs.OrderedMap
import Recast.Proofs.Text.Placeholder

/-!
# Gathered — collectors by what they have received

What a collector emits depends on the values that it has received since it was reset, and on nothing
else.  Here it is said from these values alone, without the memory of the collector:

* `Collector.sent` — the values that an input has sent;
* `Collector.Since` — what has been received since the last emission;
* `Collector.Combined` — what a combination makes of the values received.

The main statement is `Collector.gathers`.
-/

namespace Recast
namespace Collector

/-- Values that have been received one after the other, each with the input that has sent it. -/
abbrev History := List (String × String)

variable {k : Collector} {m : Memory} {h : History} {inputs : List String}

def behind (k : Collector) (m : Memory) (h : History) : Memory :=
  h.foldl (fun m p => (k.receive m p.1 p.2).2) m

def answer (k : Collector) (m : Memory) (h : History) (p : String × String) : Option String :=
  (k.receive (k.behind m h) p.1 p.2).1

/-- What is remembered of a history that goes on with one more value. -/
theorem behind_concat (k : Collector) (m : Memory) (h : History) (p : String × String) :
    k.behind m (h ++ [p]) = (k.receive (k.behind m h) p.1 p.2).2 := by
  simp [behind]

/-! ## What inputs have sent -/

def sent (input : String) (h : History) : List String :=
  (h.filter fun p => p.1 = input).map Prod.snd

/-- The latest value of an input, the empty text if it has sent none. -/
def latest (h : History) (input : String) : String :=
  (sent input h).getLast?.getD ""

/-- Every input has sent a value. -/
def Complete (inputs : List String) (h : History) : Prop :=
  ∀ i ∈ inputs, sent i h ≠ []

instance (inputs : List String) (h : History) : Decidable (Complete inputs h) :=
  inferInstanceAs (Decidable (∀ i ∈ inputs, sent i h ≠ []))

/-- One more value counts for the input that has sent it, and for no other one. -/
theorem sent_concat (input : String) (h : History) (p : String × String) :
    sent input (h ++ [p]) = sent input h ++ if p.1 = input then [p.2] else [] := by
  by_cases hp : p.1 = input <;> simp [sent, hp]

/-- A map into which a history has been written holds the latest values. -/
theorem get?_ofList_history (input : String) (h : History) :
    Assoc.get? input (Assoc.ofList h) = (sent input h).getLast? := by
  rw [sent, List.getLast?_map]
  exact OrderedMap.get?_ofList h input

/-! ## What collectors remember -/

/-- A concatenation remembers all that it has received. -/
theorem behind_concatenation {delimiter before after : String} (h : History) :
    (concat delimiter before after).behind [] h = h := by
  induction h using List.reverseRecOn with
  | nil => rfl
  | append_singleton h p ih => rw [behind_concat, ih, receive]

/-- A choice remembers the first value of each input. -/
theorem get?_behind_choice (input : String) (h : History) :
    Assoc.get? input ((choose inputs).behind [] h) = (sent input h).head? := by
  induction h using List.reverseRecOn generalizing input with
  | nil => rfl
  | append_singleton h p ih =>
      rw [behind_concat, receive, sent_concat]
      by_cases hknown : (Assoc.get? p.1 ((choose inputs).behind [] h)).isSome = true
      · rw [if_pos hknown, ih]
        rw [ih, List.isSome_head?] at hknown
        by_cases hp : p.1 = input
        · subst hp
          rw [List.head?_append_of_ne_nil _ (by simpa using hknown)]
        · simp [hp]
      · -- a new input goes to the end
        have hnew : p.1 ∉ Assoc.keys ((choose inputs).behind [] h) :=
          Assoc.get?_eq_none_iff.1 (by simpa using hknown)
        rw [if_neg hknown, ← Assoc.put_of_not_mem p.2 hnew, Assoc.get?_put, ih]
        have hnone : (sent p.1 h).head? = none := by
          rw [← ih]
          exact Assoc.get?_eq_none_iff.2 hnew
        by_cases hp : p.1 = input
        · subst hp
          simp [List.head?_eq_none_iff.1 hnone]
        · simp [hp]

section Combination

variable {template : List Placeholder.Part} {clears : Bool}

/-- A combination that remembers the latest values of a history completes it with one more value. -/
theorem receive_combination (since : History) (p : String × String) :
    (combine template inputs clears).receive (Assoc.ofList since) p.1 p.2 =
      if Complete inputs (since ++ [p]) then
        (some (Placeholder.fill (latest (since ++ [p])) template),
          if clears then [] else Assoc.ofList (since ++ [p]))
      else (none, Assoc.ofList (since ++ [p])) := by
  have hget : ∀ i, Assoc.get? i (Assoc.put p.1 p.2 (Assoc.ofList since)) =
      (sent i (since ++ [p])).getLast? := by
    intro i
    rw [← Assoc.ofList_concat, get?_ofList_history]
  have hall : (inputs.all fun i => (Assoc.get? i (Assoc.put p.1 p.2 (Assoc.ofList since))).isSome) =
      decide (Complete inputs (since ++ [p])) := by
    rw [Bool.eq_iff_iff, List.all_eq_true, decide_eq_true_iff]
    simp only [hget, List.getLast?_isSome, Complete]
  have hlatest : (fun n => (Assoc.get? n (Assoc.put p.1 p.2 (Assoc.ofList since))).getD "") =
      latest (since ++ [p]) := funext fun n => by rw [hget, latest]
  simp only [receive, hall, hlatest, decide_eq_true_iff, Assoc.ofList_concat]

/-- A combination that is never cleared remembers the latest values since the reset. -/
theorem behind_combination (h : History) :
    (combine template inputs false).behind [] h = Assoc.ofList h := by
  induction h using List.reverseRecOn with
  | nil => rfl
  | append_singleton h p ih =>
      rw [behind_concat, ih, receive_combination]
      split <;> rfl

/-- What has been received since something was emitted. -/
inductive Since (k : Collector) (m : Memory) : History → History → Prop
  | start : Since k m [] []
  | emitted {h : History} {p : String × String} (hp : (k.answer m h p).isSome = true) :
      Since k m (h ++ [p]) []
  | silent {h since : History} {p : String × String} (hsince : Since k m h since)
      (hp : k.answer m h p = none) : Since k m (h ++ [p]) (since ++ [p])

/-- A combination that is cleared remembers the latest values since it has emitted. -/
theorem since_combination (h : History) : ∃ since,
    (combine template inputs true).Since [] h since ∧
      (combine template inputs true).behind [] h = Assoc.ofList since := by
  induction h using List.reverseRecOn with
  | nil => exact ⟨[], .start, rfl⟩
  | append_singleton h p ih =>
      obtain ⟨since, hsince, hbehind⟩ := ih
      have hreceive : (combine template inputs true).receive (Assoc.ofList since) p.1 p.2 = _ :=
        receive_combination since p
      -- with the new value the combination is complete, or it is held
      by_cases hall : Complete inputs (since ++ [p])
      · rw [if_pos hall] at hreceive
        refine ⟨[], .emitted ?_, ?_⟩
        · rw [answer, hbehind, hreceive]
          rfl
        · rw [behind_concat, hbehind, hreceive]
          rfl
      · rw [if_neg hall] at hreceive
        refine ⟨since ++ [p], .silent hsince ?_, ?_⟩
        · rw [answer, hbehind, hreceive]
        · rw [behind_concat, hbehind, hreceive]

end Combination

/-! ## What collectors emit -/

/-- The attributes of a combination say whether it is cleared when it has emitted. -/
def ClearsBy (attributes : OrderedMap String String) (clears : Bool) : Prop :=
  match attributes.get? "reset" with
  | none => clears = false
  | some r => Text.trim r = if clears then "true" else "false"

/-- What is emitted for some values is the template with the latest of them filled in, each reference
once, if every input has sent one, and nothing if not. -/
structure Combined (template : String) (inputs : List String) (h : History)
    (answer : Option String) : Prop where
  complete : Complete inputs h → ∃ out, answer = some out ∧
    ∀ cs, Placeholder.Filled '{' '}' (latest h) template.toList cs ↔ cs = out.toList
  incomplete : ¬ Complete inputs h → answer = none

/-- With one more value, a combination emits what is combined from the latest values. -/
theorem combined_receive {template : String} {clears : Bool} (since : History)
    (p : String × String) : Combined template inputs (since ++ [p])
      ((combine (Placeholder.parts '{' '}' template.toList) inputs clears).receive
        (Assoc.ofList since) p.1 p.2).1 := by
  rw [receive_combination]
  constructor
  · intro hall
    rw [if_pos hall]
    exact ⟨_, rfl, fun cs => Placeholder.filled_iff⟩
  · intro hall
    rw [if_neg hall]

/-- At the end of a record a concatenation emits all values in their order, if there are any. -/
theorem flush_concatenation {delimiter before after : String} (h : History) :
    (concat delimiter before after).flush ((concat delimiter before after).behind [] h) =
      if h = [] then none
      else some (before ++ Text.glue delimiter (h.map Prod.snd) ++ after) := by
  rw [behind_concatenation, flush]
  cases h with
  | nil => rfl
  | cons p rest => rfl

/-- At the end of a record a choice emits the first value of the first input that has one. -/
theorem flush_choice (h : History) :
    (choose inputs).flush ((choose inputs).behind [] h) =
      inputs.findSome? fun i => (sent i h).head? := by
  simp only [flush, get?_behind_choice]

/-- What a combination answers is decided by what it has received since the reset or, if it is cleared
when it emits, since it has emitted. -/
theorem combined_answer {template : String} (clears : Bool) (h : History) :
    ∃ since,
      (if clears then
        (combine (Placeholder.parts '{' '}' template.toList) inputs clears).Since [] h since
      else since = h) ∧
      ∀ p, Combined template inputs (since ++ [p])
        ((combine (Placeholder.parts '{' '}' template.toList) inputs clears).answer [] h p) := by
  cases clears with
  -- nothing is cleared, so all values count
  | false =>
      refine ⟨h, rfl, fun p => ?_⟩
      have hbehind : (combine (Placeholder.parts '{' '}' template.toList) inputs false).behind [] h =
          Assoc.ofList h := behind_combination h
      rw [answer, hbehind]
      exact combined_receive h p
  | true =>
      -- only the values since the last one that was handed on count
      obtain ⟨since, hsince, hbehind⟩ : ∃ since,
          (combine (Placeholder.parts '{' '}' template.toList) inputs true).Since [] h since ∧ _ :=
        since_combination h
      refine ⟨since, hsince, fun p => ?_⟩
      rw [answer, hbehind]
      exact combined_receive since p

/-- A combination is built from its template, and by what the attributes say of clearing it. -/
theorem ofKind_combine {attributes : OrderedMap String String} {template : String} {clears : Bool}
    (hvalue : attributes.get? "value" = some template) (hreset : ClearsBy attributes clears) :
    ofKind "combine" attributes inputs =
      .ok (combine (Placeholder.parts '{' '}' template.toList) inputs clears) := by
  have hs : Signature.collector? "combine" = some ⟨"combine", ["value"], []⟩ := by decide
  have hcheck : Function.checkRequired ⟨"combine", ["value"], []⟩ attributes = .ok () :=
    Function.checkRequired_of_isSome (by simp [hvalue])
  have hrequired : Function.required "combine" attributes "value" = .ok template := by
    rw [Function.required, hvalue]
  unfold ClearsBy at hreset
  unfold ofKind
  -- the flag is missing, or it is read as what it says
  cases hget : attributes.get? "reset" with
  | none =>
      rw [hget] at hreset
      subst hreset
      simp only [hs, hcheck, hrequired]
      rfl
  | some r =>
      rw [hget] at hreset
      have hread : readReset r = .ok clears := by
        rw [readReset, hreset]
        cases clears <;> rfl
      simp only [hs, hcheck, hrequired, hread]
      rfl

theorem readReset_eq_ok {r : String} {clears : Bool} (h : readReset r = .ok clears) :
    Text.trim r = if clears then "true" else "false" := by
  unfold readReset at h
  split at h
  · obtain rfl := Except.ok.inj h
    assumption
  · obtain rfl := Except.ok.inj h
    assumption
  · cases h

/-- A combination can be built only if it has a template and is told whether it is cleared. -/
theorem exists_of_ofKind_combine {attributes : OrderedMap String String}
    (hk : ofKind "combine" attributes inputs = .ok k) :
    ∃ template clears, attributes.get? "value" = some template ∧ ClearsBy attributes clears := by
  have hs : Signature.collector? "combine" = some ⟨"combine", ["value"], []⟩ := by decide
  unfold ofKind at hk
  simp only [hs] at hk
  obtain ⟨_, hcheck, hk⟩ := bind_eq_ok.1 hk
  -- without a template the check of the attributes fails
  obtain ⟨template, hvalue⟩ : ∃ template, attributes.get? "value" = some template := by
    cases hvalue : attributes.get? "value" with
    | some template => exact ⟨template, rfl⟩
    | none => simp [Function.checkRequired, hvalue] at hcheck
  unfold ClearsBy
  cases hget : attributes.get? "reset" with
  | none => exact ⟨template, false, hvalue, rfl⟩
  | some r =>
      rw [hget] at hk
      obtain ⟨clears, hclears, -⟩ := bind_eq_ok.1 hk
      exact ⟨template, clears, hvalue, readReset_eq_ok hclears⟩

/-- After a reset, whatever has come before, collectors emit by what they receive.  A concatenation
emits nothing but all values in their order at the end, if there are any; a choice nothing but the
first value of the first input that has one.  A combination emits its template with the latest values
filled in whenever a value comes and every input has sent one: since the reset, or, if it is cleared
when it emits, since it has emitted. -/
theorem gathers (inputs : List String) (attributes : OrderedMap String String) :
    (∃ k, ofKind "concat" attributes inputs = .ok k ∧ ∀ m h,
      (∀ p, k.answer (k.reset m) h p = none) ∧
      k.flush (k.behind (k.reset m) h) = if h = [] then none else
        some ((attributes.get? "prefix").getD "" ++
          Text.glue ((attributes.get? "delimiter").getD "") (h.map Prod.snd) ++
          (attributes.get? "postfix").getD "")) ∧
    (∃ k, ofKind "choose" attributes inputs = .ok k ∧ ∀ m h,
      (∀ p, k.answer (k.reset m) h p = none) ∧
      k.flush (k.behind (k.reset m) h) = inputs.findSome? fun i => (sent i h).head?) ∧
    ((∃ k, ofKind "combine" attributes inputs = .ok k) ↔
      ∃ template clears, attributes.get? "value" = some template ∧ ClearsBy attributes clears) ∧
    ∀ k template clears, ofKind "combine" attributes inputs = .ok k →
      attributes.get? "value" = some template → ClearsBy attributes clears →
      ∀ m h, k.flush (k.behind (k.reset m) h) = none ∧
        ∃ since, (if clears then k.Since (k.reset m) h since else since = h) ∧
          ∀ p, Combined template inputs (since ++ [p]) (k.answer (k.reset m) h p) := by
  constructor
  · -- a concatenation has no attribute that could be missing
    refine ⟨_, rfl, fun m h => ?_⟩
    constructor
    · intro p
      rfl
    · exact flush_concatenation h
  constructor
  · -- nor has a choice
    refine ⟨_, rfl, fun m h => ?_⟩
    constructor
    · intro p
      rfl
    · exact flush_choice h
  constructor
  · constructor
    · rintro ⟨k, hk⟩
      exact exists_of_ofKind_combine hk
    · rintro ⟨template, clears, hvalue, hreset⟩
      exact ⟨_, ofKind_combine hvalue hreset⟩
  · intro k template clears hk hvalue hreset m h
    -- the attributes tell which combination has been built
    have hbuilt : ofKind "combine" attributes inputs =
        .ok (combine (Placeholder.parts '{' '}' template.toList) inputs clears) :=
      ofKind_combine hvalue hreset
    obtain rfl : k = combine (Placeholder.parts '{' '}' template.toList) inputs clears :=
      Except.ok.inj (hk.symm.trans hbuilt)
    constructor
    · rfl
    · exact combined_answer clears h

def pairing : OrderedMap String String :=
  .ofList [("value", "$\x7ba\x7d-$\x7bb\x7d$\x7bc\x7d"), ("reset", " true ")]

/-- A combination that is cleared: a second value of one input is not enough, and a value that looks
like a reference is not read again. -/
theorem gathers_pairing : ∃ k, ofKind "combine" pairing ["a", "b"] = .ok k ∧
    pairing.get? "value" = some "$\x7ba\x7d-$\x7bb\x7d$\x7bc\x7d" ∧ ClearsBy pairing true ∧
    k.answer (k.reset [("b", "0")]) [("a", "1")] ("b", "2") = some "1-2" ∧
    k.answer (k.reset [("b", "0")]) [("a", "1"), ("b", "2")] ("b", "x") = none ∧
    k.answer (k.reset [("b", "0")]) [("a", "1"), ("b", "2"), ("b", "x")] ("a", "$\x7bb\x7d") =
      some "$\x7bb\x7d-x" ∧
    ∃ since, k.Since (k.reset [("b", "0")]) [("a", "1"), ("b", "2"), ("b", "x")] since ∧
      Combined "$\x7ba\x7d-$\x7bb\x7d$\x7bc\x7d" ["a", "b"] (since ++ [("a", "$\x7bb\x7d")])
        (some "$\x7bb\x7d-x") := by
  have hvalue : pairing.get? "value" = some "$\x7ba\x7d-$\x7bb\x7d$\x7bc\x7d" := by decide +kernel
  have hclears : ClearsBy pairing true := by
    unfold ClearsBy
    have hreset : pairing.get? "reset" = some " true " := by decide +kernel
    rw [hreset]
    decide +kernel
  obtain ⟨-, -, hbuilt, hcombine⟩ := gathers ["a", "b"] pairing
  obtain ⟨k, hk⟩ := hbuilt.2 ⟨_, true, hvalue, hclears⟩
  obtain ⟨-, since, hsince, hcombined⟩ := hcombine k _ true hk hvalue hclears [("b", "0")]
    [("a", "1"), ("b", "2"), ("b", "x")]
  obtain rfl := Except.ok.inj (hk.symm.trans (ofKind_combine hvalue hclears))
  -- the value itself looks like a reference, and is left as it is
  have hlast : (combine (Placeholder.parts '{' '}' "$\x7ba\x7d-$\x7bb\x7d$\x7bc\x7d".toList)
      ["a", "b"] true).answer [] [("a", "1"), ("b", "2"), ("b", "x")] ("a", "$\x7bb\x7d") =
        some "$\x7bb\x7d-x" := by decide +kernel
  exact ⟨_, hk, hvalue, hclears, by decide +kernel, by decide +kernel, hlast, since, hsince,
    hlast ▸ hcombined _⟩

end Collector
end Recast
