import Recast.Morph.Run
import Recast.Proofs.Morph.Reading
import Recast.Proofs.Morph.Substitution

/-!
# Lookup — what a function finds in a table

A lookup answers a value by the text of an entry with this name.  A name may be repeated in a table:
`Script.Table.get?` is the value of the first entry, and a lookup takes the last one, as the map of
the table does.  For each value the two are the same exactly if these entries have the same text; in
the other cases a lookup does not find what the table says: `Morph.lookup_repeated_wrong`.

* `Script.Table.Gives` — the text that a table has for a key, which is that of its last entry;
* `Function.LooksUp` — the functions that look values up in a table;
* `Morph.Finds` — the lookups that have a table of the script to look up in.

The main statement is `Morph.lookups_find`.
-/

namespace Recast

namespace Script.Table

variable {t : Table} {key value : String}

/-- A table has a text for the names of its entries. -/
theorem exists_gives_iff : (∃ value, t.Gives key value) ↔ t.contains key = true := by
  rw [contains, List.any_eq_true]
  constructor
  · rintro ⟨_, e, he, -⟩
    exact ⟨e, List.mem_filter.1 (List.mem_of_getLast? he)⟩
  · rintro ⟨e, he, hname⟩
    have hne : t.entries.filter (fun e => e.name = key) ≠ [] :=
      List.ne_nil_of_mem (List.mem_filter.2 ⟨he, hname⟩)
    exact ⟨_, _, List.getLast?_eq_some_getLast hne, rfl⟩

/-- If no name is repeated, the first entry of a name is the last one. -/
theorem gives_get?_of_nodup (h : (t.entries.map Entry.name).Nodup) (hkey : t.contains key = true) :
    t.Gives key ((t.get? key).getD "") := by
  obtain ⟨_, last, hlast, -⟩ := exists_gives_iff.2 hkey
  obtain ⟨hmem, hlastName⟩ := List.mem_filter.1 (List.mem_of_getLast? hlast)
  cases hfirst : t.entries.find? fun e => e.name = key with
  | none => exact absurd hlastName (List.find?_eq_none.1 hfirst last hmem)
  | some first =>
      have hname : first.name = key := by simpa using List.find?_some hfirst
      have hsame : first = last :=
        List.inj_on_of_nodup_map h (List.mem_of_find?_eq_some hfirst) hmem
          (hname.trans (of_decide_eq_true hlastName).symm)
      exact ⟨last, hlast, by rw [get?, hfirst, hsame, Option.bind_some]⟩

end Script.Table

namespace Function

variable {f : Function} {t : Script.Table} {maps : OrderedMap String Script.Table}
  {attributes : OrderedMap String String} {name : String} {default_ : Option String}

/-- A function looks values up in a table: it answers those that entries are named for by the texts
of these, and all other ones by a default, or not at all.  What it remembers stays as it is. -/
structure LooksUp (f : Function) (t : Script.Table) (default_ : Option String) : Prop where
  /-- Of several entries the last one counts. -/
  last : ∀ m value, t.contains value = true →
    ∃ text, t.Gives value text ∧ f.apply m value = (some text, m)
  other : ∀ m value, t.contains value = false → f.apply m value = (default_, m)
  /-- A value is answered by the first entry exactly if the last one has the same text. -/
  first : ∀ m value, t.contains value = true →
    (f.apply m value = (some ((t.get? value).getD ""), m) ↔ t.Gives value ((t.get? value).getD ""))
  /-- So are all values if no name is repeated. -/
  distinct : (t.entries.map Script.Entry.name).Nodup → ∀ m value,
    f.apply m value =
      (if t.contains value then some ((t.get? value).getD "") else default_, m)

/-- A value for which there is a text is answered by this text. -/
theorem apply_lookup {m : Memory} {value text : String} (h : t.Gives value text) :
    (lookup t.toMap default_).apply m value = (some text, m) := by
  rw [apply, Script.Table.get?_toMap_iff.2 h, Option.some_or]

/-- A lookup function looks values up in its table. -/
theorem looksUp_lookup (t : Script.Table) (default_ : Option String) :
    (lookup t.toMap default_).LooksUp t default_ := by
  -- a value that no entry has gets the default
  have hother : ∀ m value, t.contains value = false →
      (lookup t.toMap default_).apply m value = (default_, m) := by
    intro m value hvalue
    have hnone : t.toMap.get? value = none := by
      rw [Option.eq_none_iff_forall_ne_some]
      intro text htext
      have hcontains := Script.Table.exists_gives_iff.1 ⟨text, Script.Table.get?_toMap_iff.1 htext⟩
      rw [hvalue] at hcontains
      cases hcontains
    rw [apply, hnone, Option.none_or]
  refine ⟨?last, hother, ?first, ?distinct⟩
  case last =>
    intro m value hvalue
    obtain ⟨text, htext⟩ := Script.Table.exists_gives_iff.2 hvalue
    exact ⟨text, htext, apply_lookup htext⟩
  case first =>
    intro m value hvalue
    refine ⟨fun h => ?_, apply_lookup⟩
    obtain ⟨text, htext⟩ := Script.Table.exists_gives_iff.2 hvalue
    rw [apply_lookup htext, Prod.mk.injEq, Option.some.injEq] at h
    exact h.1 ▸ htext
  case distinct =>
    intro hnodup m value
    -- names are distinct, so the last entry of the name is the first one
    cases hvalue : t.contains value with
    | true => exact apply_lookup (Script.Table.gives_get?_of_nodup hnodup hvalue)
    | false => exact hother m value hvalue

/-- A call that names its table is a lookup. -/
theorem ofCall_lookup (hname : attributes.get? "in" = some name) (ht : maps.get? name = some t) :
    ofCall maps ⟨"lookup", attributes⟩ = .ok (.lookup t.toMap (attributes.get? "default")) := by
  have hs : Signature.function? "lookup" = some ⟨"lookup", ["in"], ["in"]⟩ := by decide
  have hcheck : checkRequired ⟨"lookup", ["in"], ["in"]⟩ attributes = .ok () :=
    checkRequired_of_isSome (by simp [hname])
  unfold ofCall
  simp only [hs, hcheck, table_eq_ok hname ht]
  rfl

/-- A call without fault names a table. -/
theorem exists_table_of_ofCall (h : ofCall maps ⟨"lookup", attributes⟩ = .ok f) :
    ∃ name t, attributes.get? "in" = some name ∧ maps.get? name = some t := by
  have hs : Signature.function? "lookup" = some ⟨"lookup", ["in"], ["in"]⟩ := by decide
  unfold ofCall at h
  simp only [hs] at h
  -- the attributes are checked first, and then the table is looked for
  obtain ⟨_, _, h⟩ := bind_eq_ok.1 h
  obtain ⟨_, htable, _⟩ := bind_eq_ok.1 h
  obtain ⟨name, hname, ht⟩ := bind_eq_ok.1 htable
  refine ⟨name, ?_⟩
  cases hget : attributes.get? "in" with
  | none => simp [required, hget] at hname
  | some k =>
      obtain rfl : k = name := by simpa [required, hget] using hname
      cases hmap : maps.get? k with
      | none => simp [hmap] at ht
      | some t => exact ⟨t, rfl, rfl⟩

end Function

namespace Morph

variable {s : Script} {m : Morph}

/-- If a call of a script is a lookup, its function looks values up in a table of the script, with
the default of the call. -/
def Finds (s : Script) (call : Script.Call) (f : Function) : Prop :=
  call.name = "lookup" →
    ∃ name t, (filled s.vars call.attributes).get? "in" = some name ∧ s.maps.get? name = some t ∧
      f.LooksUp t ((filled s.vars call.attributes).get? "default")

/-- The function that has been built for a lookup finds what the call asks for. -/
theorem finds_of_read {call : Script.Call} {f : Function} (h : FunctionRead s call f) :
    Finds s call f := by
  obtain ⟨name, attributes⟩ := call
  rintro rfl
  obtain ⟨name, t, hname, ht⟩ := Function.exists_table_of_ofCall h
  obtain rfl := Except.ok.inj (h.symm.trans (Function.ofCall_lookup hname ht))
  exact ⟨name, t, hname, ht, Function.looksUp_lookup t _⟩

/-- Every table of a script can be looked up in, and the lookups of its program do so, wherever they
stand: with the text of the last entry for a value, which is that of the first one if the names in
the table are distinct, and with the default exactly for values that no entry is named for. -/
theorem lookups_find (h : ofScript s = .ok m) :
    (∀ name t attributes, s.maps.get? name = some t → attributes.get? "in" = some name →
      ∃ f, Function.ofCall s.maps ⟨"lookup", attributes⟩ = .ok f ∧
        f.LooksUp t (attributes.get? "default")) ∧
      List.Forall₂ (fun w p => List.Forall₂ (Finds s) w.1.functions p.functions)
        (wires 0 s.rules) m.pipes := by
  constructor
  · intro name t attributes ht hname
    exact ⟨_, Function.ofCall_lookup hname ht, Function.looksUp_lookup t _⟩
  · obtain ⟨hpipes, -⟩ := ofScript_read h
    refine hpipes.imp ?_
    intro w p hread
    exact hread.functions.imp fun _ _ => finds_of_read

/-- A table with a name that is repeated with one text, one with two texts and one without any. -/
def repeating : Script.Table :=
  ⟨"m", [⟨"same", some "a", []⟩, ⟨"two", some "b", []⟩, ⟨"bare", none, []⟩,
    ⟨"same", some "a", []⟩, ⟨"two", some "c", []⟩]⟩

/-- A script with a lookup in `Morph.repeating` whose default is that of a variable, and one in
another table that has no default. -/
def glossing : Script :=
  ⟨"glossing", .ofList [("unknown", "?")],
    [.data ⟨"x", some "o", none, [⟨"trim", .empty⟩,
      ⟨"lookup", .ofList [("in", "m"), ("default", "$[unknown]")]⟩]⟩,
     .collect ⟨"combine", "c", .ofList [("value", "${o}")],
      [⟨"y", some "o", none, [⟨"lookup", .ofList [("in", "n")]⟩]⟩]⟩],
    .ofList [("m", repeating), ("n", ⟨"n", [⟨"k", some "l", []⟩]⟩)], .empty⟩

theorem lookups_find_glossing :
    let attributes := OrderedMap.ofList [("in", "m"), ("default", "?")]
    ∃ m, ofScript glossing = .ok m ∧
      (∃ f, Function.ofCall glossing.maps ⟨"lookup", attributes⟩ = .ok f ∧
        f.apply .fresh "two" = (some "c", .fresh) ∧
        f.apply .fresh "same" = (some "a", .fresh) ∧
        f.apply .fresh "bare" = (some "", .fresh) ∧
        f.apply .fresh "other" = (some "?", .fresh)) ∧
      List.Forall₂ (fun w p => List.Forall₂ (Finds glossing) w.1.functions p.functions)
        (wires 0 glossing.rules) m.pipes ∧
      (m.run [.startRecord "r", .literal "x" " other ", .literal "y" "k", .literal "y" "j",
        .endRecord]).out =
          [.startRecord "r", .literal "o" "?", .literal "c" "l", .endRecord] := by
  intro attributes
  have hrun : ((ofScript glossing).toOption.map fun m =>
      (m.run [.startRecord "r", .literal "x" " other ", .literal "y" "k", .literal "y" "j",
        .endRecord]).out) =
          some [.startRecord "r", .literal "o" "?", .literal "c" "l", .endRecord] := by
    decide +kernel
  obtain ⟨m, hm, hout⟩ := toOption_map_eq_some.1 hrun
  obtain ⟨htables, hpipes⟩ := lookups_find hm
  obtain ⟨f, hf, hlooks⟩ := htables "m" repeating attributes (by decide +kernel) (by decide +kernel)
  -- where an entry is the last of its name, its text is the answer
  have hgives : ∀ e, (repeating.entries.filter fun d => d.name = e.name).getLast? = some e →
      f.apply .fresh e.name = (some (e.value.getD ""), .fresh) := by
    intro e hlast
    have hcontains : repeating.contains e.name = true :=
      Script.Table.exists_gives_iff.1 ⟨_, e, hlast, rfl⟩
    obtain ⟨text, htext, happly⟩ := hlooks.last .fresh e.name hcontains
    rwa [htext.unique ⟨e, hlast, rfl⟩] at happly
  refine ⟨m, hm, ⟨f, hf, ?_, ?_, ?_, ?_⟩, hpipes, hout⟩
  · exact hgives ⟨"two", some "c", []⟩ (by decide +kernel)
  · exact (hlooks.first .fresh "same" (by decide +kernel)).2
      ⟨⟨"same", some "a", []⟩, by decide +kernel, rfl⟩
  · exact hgives ⟨"bare", none, []⟩ (by decide +kernel)
  · have hdefault : attributes.get? "default" = some "?" := by decide +kernel
    exact hdefault ▸ hlooks.other .fresh "other" (by decide +kernel)

def repeated : Script :=
  ⟨"", .empty, [.data ⟨"s", some "o", none, [⟨"lookup", .ofList [("in", "m")]⟩]⟩],
    .ofList [("m", ⟨"m", [⟨"k", some "a", []⟩, ⟨"k", some "b", []⟩]⟩)], .empty⟩

/-- The table says the first text, and the program the second one. -/
theorem lookup_repeated_wrong :
    ((repeated.maps.get? "m").bind fun t => t.get? "k") = some "a" ∧
      ∃ m, ofScript repeated = .ok m ∧
        (m.run [.startRecord "1", .literal "s" "k", .endRecord]).out =
          [.startRecord "1", .literal "o" "b", .endRecord] := by
  refine ⟨by decide +kernel, toOption_map_eq_some.1 ?_⟩
  decide +kernel

end Morph
end Recast
