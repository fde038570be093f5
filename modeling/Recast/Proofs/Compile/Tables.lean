import Recast.Proofs.Compile.Correct
import Recast.Proofs.Compile.Flushing

/-!
# Tables — whose tables a compiled script has

A script keeps the tables of all components in one map, under names made of an id and the name of a
parameter.  A table that is stored under the name of another one takes its place.  So the parameters
of a job own the tables that their attributes name exactly if tables of one name are one table, and
then the functions of its program read no tables but those of their own components:
`Job.compile_tables`.  An id and the name of a parameter that both have dots in them can be those of
another component, whose table is then read in its place: `Job.compile_shadowed_wrong`.

* `Component.Tabled` — which parameters are tables, with which entries;
* `Component.OwnsTables` — the call of a component names tables with just these entries;
* `Job.RunsOwn` — a pipe runs functions that are built from their own components.
-/

namespace Recast

/-! ## Components and their tables -/

namespace Component

variable {c : Component} {s : Script}

/-- The function of a component takes a table for a parameter, whose data is one written as JSON. -/
def WritesTable (c : Component) (p : Parameter) (entries : List Script.Entry) : Prop :=
  ∃ s data, c.signature? = some s ∧ p.name ∈ s.tables ∧ p.data = some data ∧
    Parameter.inlineTable? data = some entries

/-- A parameter of a component is a table: one written as JSON, or else the block of a parameter that
repeats. -/
inductive Tabled (c : Component) (p : Parameter) : List Script.Entry → Prop
  | written {entries : List Script.Entry} (h : c.WritesTable p entries) : Tabled c p entries
  | block (h : p.repeats = true) (hnone : ∀ entries, ¬ c.WritesTable p entries) :
      Tabled c p (Draft.blockEntries p.parameters)

theorem writesTable_iff {p : Parameter} {entries : List Script.Entry} :
    c.WritesTable p entries ↔ (if c.signature?.any fun s => s.isTable p.name then
      p.data.bind Parameter.inlineTable? else none) = some entries := by
  unfold WritesTable
  cases c.signature? with
  | none => simp
  | some s => simp [Signature.isTable, Option.bind_eq_some_iff]

/-- A parameter is a table just where it has entries. -/
theorem tabled_iff {p : Parameter} {entries : List Script.Entry} :
    c.Tabled p entries ↔ c.entries? p = some entries := by
  unfold entries? Draft.tableOf?
  constructor
  · rintro (h | ⟨h, hnone⟩)
    · rw [writesTable_iff.1 h]
    · rw [Option.eq_none_iff_forall_ne_some.2 fun e he => hnone e (writesTable_iff.2 he)]
      exact if_pos h
  · intro h
    -- a table that is written goes before the block of parameters
    cases hwritten : (if c.signature?.any fun s => s.isTable p.name then
        p.data.bind Parameter.inlineTable? else none) with
    | some written =>
        rw [hwritten] at h
        obtain rfl := Option.some.inj h
        exact .written (writesTable_iff.2 hwritten)
    | none =>
        rw [hwritten] at h
        obtain ⟨hrepeats, rfl⟩ : p.repeats = true ∧ Draft.blockEntries p.parameters = entries := by
          simpa using h
        refine .block hrepeats fun e he => ?_
        rw [writesTable_iff.1 he] at hwritten
        cases hwritten

/-- Each parameter of a component that is a table is an attribute of its call, and names a table of
the script that has just its entries. -/
def OwnsTables (c : Component) (s : Script) : Prop :=
  ∀ p ∈ c.arguments, ∀ entries, c.Tabled p entries →
    ∃ name t, c.call.attributes.get? p.name = some name ∧ s.maps.get? name = some t ∧
      t.entries = entries

/-- A call hands a table on by its name. -/
theorem get?_call_table (hkeyed : c.Keyed) {p : Parameter} (hp : p ∈ c.arguments)
    {entries : List Script.Entry} (hentries : c.entries? p = some entries) :
    c.call.attributes.get? p.name = some (c.tableName p) := by
  rw [get?_call hkeyed, find?_argument hkeyed hp]
  simp [attribute?, hentries]

/-- A component owns its tables if a script has each of them under its name. -/
theorem ownsTables_of_get? (hkeyed : c.Keyed) (hkind : c.kind = .function ∨ c.kind = .collector)
    (h : ∀ t ∈ c.tables, s.maps.get? t.name = some t) : c.OwnsTables s := by
  intro p hp entries htabled
  have hentries := tabled_iff.1 htabled
  have ht : ⟨c.tableName p, entries⟩ ∈ c.tables :=
    mem_tables_iff.2 ⟨hkind, p, hp, entries, hentries, rfl⟩
  exact ⟨_, _, get?_call_table hkeyed hp hentries, h _ ht, rfl⟩

/-- What a script has under the name of a table that is owned are the entries of this table. -/
theorem OwnsTables.get? (h : c.OwnsTables s) (hkeyed : c.Keyed) {t : Script.Table}
    (ht : t ∈ c.tables) : ∃ u, s.maps.get? t.name = some u ∧ u.entries = t.entries := by
  obtain ⟨-, p, hp, entries, hentries, rfl⟩ := mem_tables_iff.1 ht
  obtain ⟨name, u, hname, hu, hentries'⟩ := h p hp entries (tabled_iff.2 hentries)
  obtain rfl := Option.some.inj ((get?_call_table hkeyed hp hentries).symm.trans hname)
  exact ⟨u, hu, hentries'⟩

end Component

namespace Job

variable {j : Job} {s : Script} {ps seen : List Component} {d : Draft}

/-- Only one table can be found under a name, so if every component owns its tables, those of one
name are one table. -/
theorem separate_of_ownsTables (hkeyed : ∀ c ∈ j.components, c.Keyed)
    (h : ∀ c ∈ j.components, c.kind = .function ∨ c.kind = .collector → c.OwnsTables s) :
    j.Separate := by
  intro c hc e he t ht u hu hname
  obtain ⟨v, hv, htv⟩ :=
    (h c hc (Component.mem_tables_iff.1 ht).1).get? (hkeyed c hc) ht
  obtain ⟨w, hw, huw⟩ :=
    (h e he (Component.mem_tables_iff.1 hu).1).get? (hkeyed e he) hu
  obtain rfl : v = w := by
    rw [hname, hw] at hv
    exact (Option.some.inj hv).symm
  cases t
  cases u
  simp_all

/-! ## Programs and their tables -/

/-- A pipe runs the functions of the chain that ends at an input, each built from the parameters and
tables of its own component, after the one that counts the values of a source with an ordinal. -/
def RunsOwn (j : Job) (input : String) (p : Pipe) : Prop :=
  ∃ start through own, j.Chain input start through ∧ p.functions = start.counter ++ own ∧
    List.Forall₂ (Component.Builds j.vars) through own

/-- All functions and collectors have been seen when all targets have been added. -/
theorem seen_of_shape (hj : j.compileIssues = []) (hd : Draft.Holds j ps seen d)
    (hshape : j.Shape ps s.rules) {c : Component} (hc : c ∈ j.components)
    (hkind : c.kind = .function ∨ c.kind = .collector) : c ∈ seen := by
  obtain ⟨t, ht, hread⟩ := exists_target_readsThrough (wellFormed_of_compileIssues hj) hc hkind
  rw [← hshape.targets] at ht
  exact seen_of_readsThrough (accepted_of_compileIssues hj) hd (List.mem_filter.1 ht).1 hread

/-- The pipes of a program run the functions of their own chains. -/
theorem runsOwn_of_program (hj : j.compileIssues = []) (hkeyed : ∀ c ∈ j.components, c.Keyed)
    (hplain : ∀ c ∈ j.components, Placeholder.Plain '[' c.id.toList) (hseparate : j.Separate)
    (hd : Draft.Holds j ps seen d) (hs : s = ⟨j.name, j.vars, d.rules, d.maps, d.filters⟩)
    (hshape : j.Shape ps s.rules) {m : Morph} (hm : Morph.ofScript s = .ok m) :
    List.Forall₂ j.RunsOwn (ps.flatMap Component.inputs) m.pipes := by
  have hinputs : ∀ input ∈ ps.flatMap Component.inputs, j.Begun ps seen input := by
    intro input hinput
    obtain ⟨c, hc, hinput⟩ := List.mem_flatMap.1 hinput
    obtain ⟨before, after, heq⟩ := List.append_of_mem hc
    exact (hd.begun before c after heq input hinput).mono (by simp [heq]) (List.Subset.refl _)
  refine ((List.forall₂_and_left _ _).2 ⟨hinputs, pipes_of_program hshape.rules hm⟩).imp ?_
  rintro input p ⟨hbegun, name, r, rule, hread⟩
  cases rule with
  | @of start through chain =>
      obtain ⟨own, hfunctions, hbuilds⟩ := functions_of_pipe hj hseparate hkeyed hplain hd
        (by rw [hs]) chain (hbegun start through chain).1 hread
      rw [hs] at hbuilds
      exact ⟨start, through, own, chain, hfunctions, hbuilds⟩

/-- The functions and collectors of a job own their tables in its compiled script exactly if tables of
one name are one table; and then, if no id has a placeholder in it, every function of its program
is built from the parameters and tables of its own component alone. -/
theorem compile_tables (h : j.compile = .ok s) (hkeyed : ∀ c ∈ j.components, c.Keyed) :
    ∃ ps m, j.Shape ps s.rules ∧ Morph.ofScript s = .ok m ∧
      ((∀ c ∈ j.components, c.kind = .function ∨ c.kind = .collector → c.OwnsTables s) ↔
        j.Separate) ∧
      (j.Separate → (∀ c ∈ j.components, Placeholder.Plain '[' c.id.toList) →
        List.Forall₂ j.RunsOwn (ps.flatMap Component.inputs) m.pipes) := by
  obtain ⟨hissues, -, m, hm⟩ := compile_ok h
  obtain ⟨ps, seen, d, hd, hs, hshape⟩ := compile_holds h
  refine ⟨ps, m, hshape, hm, ⟨separate_of_ownsTables hkeyed, fun hseparate c hc hkind => ?_⟩,
    fun hseparate hplain => runsOwn_of_program hissues hkeyed hplain hseparate hd hs hshape hm⟩
  have hseen := seen_of_shape hissues hd hshape hc hkind
  refine Component.ownsTables_of_get? (hkeyed c hc) hkind fun t ht => ?_
  rw [hs]
  exact hd.get?_table hseparate hseen ht

/-- A job with two tables, whose components have dots in their ids and whose parameters have none. -/
def glossed : Job :=
  ⟨"j", "glossed",
    [⟨"S", "title", .source, ⟨"title", .empty⟩, [], ["a.b"], none⟩,
     ⟨"a.b", "lookup", .function, ⟨"lookup", .ofList [("in", .ofData "in" "\x7b\"k\": \"l\"\x7d")]⟩,
        ["S"], ["a.c"], none⟩,
     ⟨"a.c", "lookup", .function, ⟨"lookup", .ofList [("in", .ofBlock "in" [.ofData "l" "m"])]⟩,
        ["a.b"], ["T"], none⟩,
     ⟨"T", "t", .target, ⟨"t", .empty⟩, ["a.c"], [], none⟩], .empty⟩

def glossedScript : Script :=
  ⟨"glossed", .empty,
    [.data ⟨"title", some "t", none, [⟨"lookup", .ofList [("in", "a.b.in")]⟩,
      ⟨"lookup", .ofList [("in", "a.c.in")]⟩]⟩],
    .ofList [("a.b.in", ⟨"a.b.in", [⟨"k", some "l", []⟩]⟩),
      ("a.c.in", ⟨"a.c.in", [⟨"l", some "m", []⟩]⟩)], .empty⟩

/-- Two tables whose components have dots in their ids. -/
theorem compile_tables_glossed : glossed.compile = .ok glossedScript ∧
    (∀ c ∈ glossed.components, c.Keyed) ∧
    (∀ c ∈ glossed.components, Placeholder.Plain '[' c.id.toList) ∧
    ∃ ps m, glossed.Shape ps glossedScript.rules ∧ Morph.ofScript glossedScript = .ok m ∧
      (∀ c ∈ glossed.components, c.kind = .function ∨ c.kind = .collector →
        c.OwnsTables glossedScript) ∧
      List.Forall₂ glossed.RunsOwn (ps.flatMap Component.inputs) m.pipes := by
  have hcompile : glossed.compile = .ok glossedScript := by decide +kernel
  have hkeyed : ∀ c ∈ glossed.components, c.Keyed := by decide +kernel
  have hplain : ∀ c ∈ glossed.components, Placeholder.Plain '[' c.id.toList := by decide +kernel
  have hseparate : glossed.Separate :=
    separate_of_dotless (accepted_of_compileIssues (compile_ok hcompile).1) hkeyed
      (.inr (by decide +kernel))
  obtain ⟨ps, m, hshape, hm, howns, hruns⟩ := compile_tables hcompile hkeyed
  exact ⟨hcompile, hkeyed, hplain, ps, m, hshape, hm, howns.2 hseparate, hruns hseparate hplain⟩

/-- A job whose second function has a block under the name of the table of the first one. -/
def shadowed : Job :=
  ⟨"j", "shadowed",
    [⟨"S", "a", .source, ⟨"a", .empty⟩, [], ["a.b"], none⟩,
     ⟨"a.b", "lookup", .function,
        ⟨"lookup", .ofList [("in", .ofData "in" "\x7b\"k\": \"right\"\x7d")]⟩, ["S"], ["a"], none⟩,
     ⟨"a", "trim", .function,
        ⟨"trim", .ofList [("b.in", .ofBlock "b.in" [.ofData "k" "wrong"])]⟩, ["a.b"], ["T"], none⟩,
     ⟨"T", "t", .target, ⟨"t", .empty⟩, ["a"], [], none⟩], .empty⟩

def shadowedScript : Script :=
  ⟨"shadowed", .empty,
    [.data ⟨"a", some "t", none, [⟨"lookup", .ofList [("in", "a.b.in")]⟩,
      ⟨"trim", .ofList [("b.in", "a.b.in")]⟩]⟩],
    .ofList [("a.b.in", ⟨"a.b.in", [⟨"k", some "wrong", []⟩]⟩)], .empty⟩

/-- The first function does not own its table, and looks values up in that of the second. -/
theorem compile_shadowed_wrong : shadowed.compile = .ok shadowedScript ∧
    (∀ c ∈ shadowed.components, c.Keyed) ∧
    (∀ c ∈ shadowed.components, Placeholder.Plain '[' c.id.toList) ∧
    ¬ (∀ c ∈ shadowed.components, c.kind = .function ∨ c.kind = .collector →
      c.OwnsTables shadowedScript) ∧
    ∃ m, Morph.ofScript shadowedScript = .ok m ∧
      (m.run [.startRecord "r", .literal "a" "k", .endRecord]).out =
        [.startRecord "r", .literal "t" "wrong", .endRecord] := by
  have hkeyed : ∀ c ∈ shadowed.components, c.Keyed := by decide +kernel
  have hrun : ((Morph.ofScript shadowedScript).toOption.map fun m =>
      (m.run [.startRecord "r", .literal "a" "k", .endRecord]).out) =
        some [.startRecord "r", .literal "t" "wrong", .endRecord] := by
    decide +kernel
  refine ⟨by decide +kernel, hkeyed, by decide +kernel, fun howns => ?_,
    toOption_map_eq_some.1 hrun⟩
  have hseparate : ¬ shadowed.Separate := by decide +kernel
  exact hseparate (separate_of_ownsTables hkeyed howns)

end Job
end Recast
