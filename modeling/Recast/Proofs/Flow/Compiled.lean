import Recast.Flow.Program
import Recast.Proofs.Compile.Shape
import Recast.Proofs.Script.Faithful

/-!
# Compiled — jobs that run as they have been compiled

A job runs from the document of its script.  So it runs the script that has been compiled just in
case this script is faithful: `Program.ofJob_iff_faithful`.  What an author writes into a job is not
checked for this: a tab in a parameter is read as a blank.
-/

namespace Recast

/-! ## Compiled scripts are known -/

namespace Job

variable {j : Job}

/-- The functions of a chain of an accepted job are known. -/
theorem isSome_of_reading (hj : j.Accepted) {name input : String} {r : Script.DataRule}
    (h : j.InputRule name input r) : ∀ c ∈ r.functions, (Signature.function? c.name).isSome := by
  cases h with
  | @of start through chain =>
      have hcalls : ∀ c ∈ through.map Component.call, (Signature.function? c.name).isSome := by
        intro c hc
        obtain ⟨f, hf, rfl⟩ := List.mem_map.1 hc
        obtain ⟨hmem, hkind⟩ := chain.mem.2 f hf
        exact hj.known_function f hmem hkind
      have hoccurrence : (Signature.function? "occurrence").isSome = true := by decide
      have hcounting : ∀ c ∈ start.counting, (Signature.function? c.name).isSome := by
        intro c hc
        unfold Component.counting at hc
        split at hc
        · obtain rfl := List.mem_singleton.1 hc
          exact hoccurrence
        · cases hc
      -- a counting call may stand in front of those of the chain
      intro c hc
      unfold Component.ruleNamed Component.reading at hc
      split at hc
      · exact (List.mem_append.1 hc).elim (hcounting c) (hcalls c)
      · exact hcalls c hc

/-- The functions and collectors of a rule of an accepted job are known. -/
theorem known_of_ruleOf (hj : j.Accepted) {c : Component} (hc : c ∈ j.components)
    {r : Script.Rule} (h : j.RuleOf c r) :
    (∀ d ∈ r.readings, ∀ f ∈ d.functions, (Signature.function? f.name).isSome) ∧
      ∀ k, r = .collect k → (Signature.collector? k.kind).isSome := by
  cases h with
  | target hkind hinput rule =>
      refine ⟨fun d hd => ?_, by simp⟩
      obtain rfl := List.mem_singleton.1 hd
      exact isSome_of_reading hj rule
  | collector hkind rules =>
      refine ⟨fun d hd => ?_, ?_⟩
      · obtain ⟨input, -, rule⟩ := exists_of_mem_right rules hd
        exact isSome_of_reading hj rule
      · rintro k hk
        obtain rfl := Script.Rule.collect.inj hk
        exact hj.known_collector c hc hkind

/-- A compiled script uses nothing but known functions and collectors. -/
theorem known_of_compile {s : Script} (h : j.compile = .ok s) : s.Known := by
  obtain ⟨hissues, hdraft, -⟩ := compile_ok h
  have hj := accepted_of_compileIssues hissues
  obtain ⟨ps, seen, d, hholds, rfl, -, -⟩ := draft_holds hj hdraft
  -- every rule is that of a component of the job, and this has been checked
  have hrule : ∀ r ∈ d.rules, ∃ c ∈ j.components, j.RuleOf c r := by
    intro r hr
    obtain ⟨c, hc, rule⟩ := exists_of_mem_right hholds.rules hr
    exact ⟨c, hholds.known c (List.mem_append_left _ hc), rule⟩
  constructor
  · -- functions
    intro r hr
    obtain ⟨c, hc, rule⟩ := hrule r hr
    exact (known_of_ruleOf hj hc rule).1
  · -- collectors
    intro k hk
    obtain ⟨c, hc, rule⟩ := hrule _ hk
    exact (known_of_ruleOf hj hc rule).2 k rfl
  · -- tables, which have been written under their own names
    intro p hp
    have hmem : p ∈ d.maps.toList := hp
    rw [hholds.maps] at hmem
    obtain ⟨t, -, rfl⟩ := List.mem_map.1 (OrderedMap.mem_of_mem_ofList hmem)
    rfl

end Job

/-! ## Programs of jobs -/

namespace Program

variable {j : Job} {s : Script}

/-- A program made from a script runs that script. -/
theorem script?_of_ofScript {p : Program} (h : ofScript s = .ok p) : p.script? = some s := by
  unfold ofScript at h
  split at h
  · obtain rfl := Except.ok.inj h
    rfl
  · cases h

/-- A text is the program of the script that it is read as, if this script can be run. -/
theorem ofText_ok {t : String} {m : Morph} (hread : Script.ofText t = .ok s)
    (hm : Morph.ofScript s = .ok m) : ∃ p, ofText t = .ok p ∧ p.script? = some s := by
  have hscript : ∃ p, ofScript s = .ok p := by
    unfold ofScript
    split
    · exact ⟨_, rfl⟩
    · rename_i e he
      rw [hm] at he
      cases he
  obtain ⟨p, hp⟩ := hscript
  refine ⟨p, ?_, script?_of_ofScript hp⟩
  rw [ofText, hread]
  exact hp

/-- A compiled job runs from the document of its script. -/
theorem ofJob_eq (h : j.compile = .ok s) : ofJob j = ofText s.toText := by
  rw [ofJob, h, ok_bind]

/-- A job whose script has been compiled runs this script if and only if the script is faithful. -/
theorem ofJob_iff_faithful (h : j.compile = .ok s) :
    (∃ p, ofJob j = .ok p ∧ p.script? = some s) ↔ s.Faithful := by
  obtain ⟨-, -, m, hm⟩ := Job.compile_ok h
  rw [ofJob_eq h, ← Script.ofText_toText_iff (Job.known_of_compile h)]
  constructor
  · rintro ⟨p, hp, hscript⟩
    unfold ofText at hp
    split at hp
    · rename_i s' hs'
      rw [script?_of_ofScript hp] at hscript
      rw [hs', Option.some.inj hscript]
    · cases hp
  · intro hread
    exact ofText_ok hread hm

/-- A job with markup, quotation marks and blanks in a parameter, and a filter on its source. -/
def quoted : Job :=
  ⟨"j", "quoted titles",
    [⟨"S", "title", .source, ⟨"title", .empty⟩, [], ["F"], some ⟨"^.+$", .regex⟩⟩,
     ⟨"F", "compose", .function,
        ⟨"compose", .ofList [("prefix", .ofData "prefix" "<a & b>  \"c\"")]⟩, ["S"], ["T"], none⟩,
     ⟨"T", "label", .target, ⟨"label", .empty⟩, ["F"], [], none⟩],
    .ofList [("lang", "it's")]⟩

def quotedScript : Script :=
  ⟨"quoted titles", .ofList [("lang", "it's")],
    [.data ⟨"title", some "label", some "S",
      [⟨"compose", .ofList [("prefix", "<a & b>  \"c\"")]⟩]⟩], .empty,
    .ofList [("S", ⟨"^.+$", .regex⟩)]⟩

/-- A job with markup in a parameter runs the script that has been compiled, as its document keeps
it. -/
theorem ofJob_quoted : quoted.compile = .ok quotedScript ∧ quotedScript.Faithful ∧
    ∃ p, ofJob quoted = .ok p ∧ p.script? = some quotedScript := by
  have h : quoted.compile = .ok quotedScript := by decide +kernel
  have hfaithful : quotedScript.Faithful := by decide +kernel
  exact ⟨h, hfaithful, (ofJob_iff_faithful h).2 hfaithful⟩

/-- A job that puts a text in front of its values. -/
def prefixing (text : String) : Job :=
  ⟨"j", "",
    [⟨"S", "a", .source, ⟨"a", .empty⟩, [], ["F"], none⟩,
     ⟨"F", "compose", .function, ⟨"compose", .ofList [("prefix", .ofData "prefix" text)]⟩, ["S"],
        ["T"], none⟩,
     ⟨"T", "t", .target, ⟨"t", .empty⟩, ["F"], [], none⟩], .empty⟩

def prefixingScript (text : String) : Script :=
  ⟨"", .empty,
    [.data ⟨"a", some "t", none, [⟨"compose", .ofList [("prefix", text)]⟩]⟩], .empty, .empty⟩

/-- With a tab in the text another script is run, in which the tab is a blank. -/
theorem ofJob_tab : (prefixing "a\tb").compile = .ok (prefixingScript "a\tb") ∧
    (∃ p, ofJob (prefixing "a\tb") = .ok p ∧ p.script? = some (prefixingScript "a b")) ∧
    ¬ ∃ p, ofJob (prefixing "a\tb") = .ok p ∧ p.script? = some (prefixingScript "a\tb") := by
  -- what is particular to the two jobs is evaluated; reading back goes through the general lemmas
  have htab : (prefixing "a\tb").compile = .ok (prefixingScript "a\tb") := by decide +kernel
  have hblank : (prefixing "a b").compile = .ok (prefixingScript "a b") := by decide +kernel
  have hlegible : (prefixingScript "a\tb").Legible := by decide +kernel
  have htree : Script.ofNode (prefixingScript "a\tb").tree = .ok (prefixingScript "a b") := by
    decide +kernel
  have hread := (Script.ofText_toText (Job.known_of_compile htab) hlegible).trans htree
  obtain ⟨-, -, m, hm⟩ := Job.compile_ok hblank
  obtain ⟨p, hp, hscript⟩ := ofText_ok hread hm
  rw [← ofJob_eq htab] at hp
  refine ⟨htab, ⟨p, hp, hscript⟩, ?_⟩
  rintro ⟨q, hq, hother⟩
  obtain rfl : p = q := Except.ok.inj (hp.symm.trans hq)
  have hne : prefixingScript "a b" ≠ prefixingScript "a\tb" := by decide +kernel
  exact hne (Option.some.inj (hscript.symm.trans hother))

end Program
end Recast
