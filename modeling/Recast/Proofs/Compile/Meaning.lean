import Recast.Proofs.Compile.Chain
import Recast.Proofs.Compile.Draft
import Recast.Proofs.Morph.Call
import Recast.Proofs.Morph.Reading
import Recast.Proofs.Morph.Route

/-!
# Meaning — what a job without collectors means

Without collectors the chain of every target starts at a source, and the target stands for a route:
from the path of the source, through its filter and its ordinal, through the functions of the chain,
to its own path.  Every function is built from the parameters and tables of its own component.

The tables of a script are named after a component and one of its parameters, with a dot between the
two.  If no table has the name of another one, every function finds the tables of its own component:
`Job.Separate`.  This is so if no id has a dot in it, or no parameter: `Job.separate_of_dotless`.
Since ids are distinct every source finds its own filter.
-/

namespace Recast

namespace Component

/-- Every parameter is kept under its own name. -/
def Keyed (c : Component) : Prop :=
  ∀ p ∈ c.payload.parameters.toList, p.2.name = p.1

instance (c : Component) : Decidable c.Keyed :=
  inferInstanceAs (Decidable (∀ p ∈ c.payload.parameters.toList, p.2.name = p.1))

/-- The attribute that a parameter gives to the function: data with the values of variables in it, a
table by its name. -/
def ownAttribute? (vars : OrderedMap String String) (c : Component) (p : Parameter) :
    Option (String × String) :=
  match c.entries? p with
  | some _ => some (p.name, c.tableName p)
  | none => p.data.map fun data => (p.name, Morph.fillText vars data)

def ownAttributes (vars : OrderedMap String String) (c : Component) : OrderedMap String String :=
  .ofList (c.arguments.filterMap (c.ownAttribute? vars))

def ownTables (c : Component) : OrderedMap String Script.Table :=
  .ofList (c.tables.map fun t => (t.name, t))

def Builds (vars : OrderedMap String String) (c : Component) (f : Function) : Prop :=
  Function.ofCall c.ownTables ⟨c.function, c.ownAttributes vars⟩ = .ok f

/-- Which value of a record a source with an ordinal keeps. -/
def ordinal? (c : Component) : Option Nat :=
  (c.payload.data? ordinalParameter).bind fun raw =>
    (Count.read Count.max64 (Text.trim raw).toList).toOption

/-- The function that counts the values of a source with an ordinal. -/
def counter (c : Component) : List Function :=
  match c.kind with
  | .source => (c.ordinal?.map Function.occurrence).toList
  | _ => []

def Filters (c : Component) (filter : Option ValueFilter) : Prop :=
  match c.filter with
  | none => filter = none
  | some f => ∃ v, ValueFilter.ofFilter f = .ok v ∧ filter = some v

end Component

namespace Job

/-- The route that a target stands for. -/
inductive RouteOf (j : Job) (t : Component) : Route → Prop where
  | of {input : String} {source : Component} {through : List Component}
      {filter : Option ValueFilter} {functions : List Function}
      (hinput : t.inputs = [input]) (chain : j.Chain input source through)
      (hsource : source.kind = .source) (hfilter : source.Filters filter)
      (hfunctions : List.Forall₂ (Component.Builds j.vars) through functions) :
      RouteOf j t ⟨source.path, t.path, filter,
        (source.ordinal?.map Function.occurrence).toList ++ functions⟩

/-- A job without collectors whose names cannot be taken for anything else: no dot and no
placeholder in an id, no star in the path of a source, no variable for the path of a target. -/
structure Simple (j : Job) : Prop where
  no_collectors : ∀ c ∈ j.components, c.kind ≠ .collector
  dotless : ∀ c ∈ j.components, '.' ∉ c.id.toList
  plain : ∀ c ∈ j.components, Placeholder.Plain '[' c.id.toList
  keyed : ∀ c ∈ j.components, c.Keyed
  sources : ∀ c ∈ j.sources, '*' ∉ c.path.toList
  targets : ∀ c ∈ j.targets, Script.isVariable c.path = false

end Job

/-! ## Tables and filters of components -/

namespace Job

/-- Tables of one name are one table, whatever components they are of. -/
def Separate (j : Job) : Prop :=
  ∀ c ∈ j.components, ∀ d ∈ j.components, ∀ t ∈ c.tables, ∀ u ∈ d.tables, t.name = u.name → t = u

/-- Dots are used in the ids of components alone, or in the names of parameters alone. -/
def Dotless (j : Job) : Prop :=
  (∀ c ∈ j.components, '.' ∉ c.id.toList) ∨
    ∀ c ∈ j.components, ∀ p ∈ c.arguments, '.' ∉ p.name.toList

instance (j : Job) : Decidable j.Separate :=
  inferInstanceAs (Decidable (∀ c ∈ j.components, ∀ d ∈ j.components, ∀ t ∈ c.tables,
    ∀ u ∈ d.tables, t.name = u.name → t = u))

end Job

namespace Component

variable {c d : Component}

/-! ## Parameters -/

/-- No two parameters that are handed on have one name. -/
theorem nodup_argument_names (h : c.Keyed) : (c.arguments.map Parameter.name).Nodup := by
  have hnames : c.payload.parameters.values.map Parameter.name = c.payload.parameters.keys := by
    simp only [OrderedMap.values, OrderedMap.keys, Assoc.keys, List.map_map]
    exact List.map_congr_left fun p hp => h p hp
  have hnodup : (c.payload.parameters.values.map Parameter.name).Nodup :=
    hnames ▸ c.payload.parameters.nodup_keys
  exact hnodup.sublist (List.filter_sublist.map _)

/-- A parameter that is handed on is found under its name. -/
theorem get?_argument (h : c.Keyed) {p : Parameter} (hp : p ∈ c.arguments) :
    c.payload.parameters.get? p.name = some p := by
  obtain ⟨entry, hentry, rfl⟩ := List.mem_map.1 (List.mem_filter.1 hp).1
  have hname := h entry hentry
  refine Assoc.get?_of_mem c.payload.parameters.nodup_keys ?_
  rw [hname]
  exact hentry

/-- A parameter is found by its name. -/
theorem find?_argument (h : c.Keyed) {p : Parameter} (hp : p ∈ c.arguments) :
    (c.arguments.find? fun q => q.name = p.name) = some p := by
  cases hfind : c.arguments.find? fun q => q.name = p.name with
  | none =>
      have hnone := List.find?_eq_none.1 hfind p hp
      simp at hnone
  | some q =>
      -- no other parameter has the name
      have hq : q.name = p.name := by simpa using List.find?_some hfind
      have hother := get?_argument h (List.mem_of_find?_eq_some hfind)
      rw [hq, get?_argument h hp] at hother
      exact hother.symm

/-! ## Tables -/

theorem toList_tableName (c : Component) (p : Parameter) :
    (c.tableName p).toList = c.id.toList ++ '.' :: p.name.toList := by
  simp [tableName, String.toList_append]

/-- The name of a table is divided in one way only at its first dot, and in one at its last. -/
theorem tableName_inj {p q : Parameter}
    (hdot : '.' ∉ c.id.toList ∧ '.' ∉ d.id.toList ∨ '.' ∉ p.name.toList ∧ '.' ∉ q.name.toList)
    (h : c.tableName p = d.tableName q) : c.id = d.id ∧ p.name = q.name := by
  have hlist := congrArg String.toList h
  rw [toList_tableName, toList_tableName] at hlist
  have hparts : c.id.toList = d.id.toList ∧ p.name.toList = q.name.toList := by
    rcases hdot with ⟨hc, hd⟩ | ⟨hp, hq⟩
    · exact Text.append_cons_inj hc hd hlist
    · exact Text.append_cons_inj_last hp hq hlist
  exact ⟨String.toList_inj.1 hparts.1, String.toList_inj.1 hparts.2⟩

/-- The tables of a component that is called are those of its parameters. -/
theorem mem_tables_iff {t : Script.Table} :
    t ∈ c.tables ↔ (c.kind = .function ∨ c.kind = .collector) ∧
      ∃ p ∈ c.arguments, ∃ entries, c.entries? p = some entries ∧ t = ⟨c.tableName p, entries⟩ := by
  have htables : t ∈ c.arguments.filterMap c.table? ↔
      ∃ p ∈ c.arguments, ∃ entries, c.entries? p = some entries ∧
        t = ⟨c.tableName p, entries⟩ := by
    simp only [List.mem_filterMap, table?, Option.map_eq_some_iff, eq_comm (a := t)]
  unfold tables
  cases c.kind <;> simp [htables]

/-- Where tables of one name are one table, that of a component is found. -/
theorem get?_ownTables {j : Job} (hseparate : j.Separate) (hc : c ∈ j.components)
    {t : Script.Table} (ht : t ∈ c.tables) : c.ownTables.get? t.name = some t := by
  refine OrderedMap.get?_ofList_of_unique (List.mem_map.2 ⟨t, ht, rfl⟩) fun u hu => ?_
  obtain ⟨v, hv, heq⟩ := List.mem_map.1 hu
  obtain ⟨hname, rfl⟩ := Prod.mk.inj heq
  exact hseparate c hc c hc v hv t ht hname

end Component

/-- Without dots on both sides of the dot between them, an id and the name of a parameter can be read
off the name of a table. -/
theorem Job.separate_of_dotless {j : Job} (hj : j.Accepted) (hkeyed : ∀ c ∈ j.components, c.Keyed)
    (hdotless : j.Dotless) : j.Separate := by
  intro c hc d hd t ht u hu hname
  obtain ⟨-, p, hp, entries, hentries, rfl⟩ := Component.mem_tables_iff.1 ht
  obtain ⟨-, q, hq, entries', hentries', rfl⟩ := Component.mem_tables_iff.1 hu
  obtain ⟨hid, hpq⟩ := Component.tableName_inj
    (hdotless.imp (fun h => ⟨h c hc, h d hd⟩) fun h => ⟨h c hc p hp, h d hd q hq⟩) hname
  -- ids are distinct, and so are the names of the parameters of one component
  have hcd : c = d := by
    have hfound := Job.component?_of_mem hj.nodup_ids hc
    rw [hid, Job.component?_of_mem hj.nodup_ids hd] at hfound
    exact (Option.some.inj hfound).symm
  subst hcd
  have hsame : p = q := by
    have hget := Component.get?_argument (hkeyed c hc) hp
    rw [hpq, Component.get?_argument (hkeyed c hc) hq] at hget
    exact (Option.some.inj hget).symm
  subst hsame
  rw [Option.some.inj (hentries.symm.trans hentries')]

namespace Draft.Holds

variable {j : Job} {ps seen : List Component} {d : Draft} {c : Component}

/-- The tables of a component that has been seen are there under their names. -/
theorem get?_table (h : Holds j ps seen d) (hseparate : j.Separate) (hc : c ∈ seen)
    {t : Script.Table} (ht : t ∈ c.tables) : d.maps.get? t.name = some t := by
  rw [h.maps]
  refine OrderedMap.get?_ofList_of_unique ?_ fun u hu => ?_
  · exact List.mem_map.2 ⟨t, List.mem_flatMap.2 ⟨c, hc, ht⟩, rfl⟩
  · obtain ⟨v, hv, heq⟩ := List.mem_map.1 hu
    obtain ⟨hname, rfl⟩ := Prod.mk.inj heq
    obtain ⟨e, he, hve⟩ := List.mem_flatMap.1 hv
    exact hseparate e (h.known e (List.mem_append_right _ he)) c
      (h.known c (List.mem_append_right _ hc)) v hve t ht hname

/-- The filter of a source that has been seen is there under the source's id. -/
theorem get?_filter (h : Holds j ps seen d) (hj : j.Accepted) (hc : c ∈ seen)
    (hkind : c.kind = .source) {f : Filter} (hf : c.filter = some f) :
    d.filters.get? c.id = some f := by
  rw [h.filters]
  refine OrderedMap.get?_ofList_of_unique ?_ fun g hg => ?_
  · exact List.mem_flatMap.2 ⟨c, hc, by simp [Component.namedFilters, hkind, hf]⟩
  · -- any filter under this id is that of the same component, since ids are distinct
    obtain ⟨e, he, hge⟩ := List.mem_flatMap.1 hg
    have hid : e.id = c.id ∧ e.filter = some g := by
      unfold Component.namedFilters at hge
      cases hekind : e.kind <;> simp_all
    have hec : e = c := by
      have hfound := Job.component?_of_mem hj.nodup_ids (h.known e (List.mem_append_right _ he))
      rw [hid.1, Job.component?_of_mem hj.nodup_ids (h.known c (List.mem_append_right _ hc))]
        at hfound
      exact (Option.some.inj hfound).symm
    rw [hec, hf] at hid
    exact (Option.some.inj hid.2).symm

end Draft.Holds
end Recast
