import Recast.Proofs.Compile.Meaning
import Recast.Proofs.Compile.Shape

/-!
# Correct — jobs without collectors run as they mean

The rules of such a job are those of its targets, and the pipe of a rule is that of the target's
route: `Job.route_of_pipe`.  So running the script of the job hands on, for whole records, what the
routes of its targets make of them: `Job.compile_correct`.
-/

namespace Recast

/-! ## Functions -/

namespace Component

variable {j : Job} {c : Component} {vars : OrderedMap String String}

/-- What a call has under a key comes from the parameter of this name. -/
theorem get?_call {k : String} (h : c.Keyed) :
    c.call.attributes.get? k =
      (c.arguments.find? fun p => p.name = k).bind fun p => (c.attribute? p).map Prod.snd := by
  refine OrderedMap.get?_ofList_filterMap (nodup_argument_names h) (fun p a ha => ?_) k
  unfold attribute? at ha
  cases he : c.entries? p <;> cases hd : p.data <;> simp_all <;> exact ha ▸ rfl

/-- What a function is given under a key comes from the parameter of this name. -/
theorem get?_ownAttributes {k : String} (h : c.Keyed) :
    (c.ownAttributes vars).get? k =
      (c.arguments.find? fun p => p.name = k).bind fun p =>
        (c.ownAttribute? vars p).map Prod.snd := by
  refine OrderedMap.get?_ofList_filterMap (nodup_argument_names h) (fun p a ha => ?_) k
  unfold ownAttribute? at ha
  cases he : c.entries? p <;> cases hd : p.data <;> simp_all <;> exact ha ▸ rfl

/-- Names of attributes have no dollar sign in them, so the names of tables stay as they are when
variables get their values. -/
theorem fillText_tableName (h : Placeholder.Plain '[' c.id.toList) {p : Parameter}
    (hp : p.name ∈ Function.attributeNames) :
    Morph.fillText vars (c.tableName p) = c.tableName p := by
  refine Placeholder.fill_parts_of_plain ?_ _
  have hdollar : ∀ k ∈ Function.attributeNames, '$' ∉ '.' :: k.toList := by decide
  rw [toList_tableName]
  exact h.append (by decide) (hdollar p.name hp)

/-- A call with the values of variables has the attributes that its own parameters give. -/
theorem agree_ownAttributes (hkeyed : c.Keyed) (hplain : Placeholder.Plain '[' c.id.toList) :
    Function.Agree (Morph.filled vars c.call.attributes) (c.ownAttributes vars) := by
  intro k hk
  rw [Morph.get?_filled, get?_call hkeyed, get?_ownAttributes hkeyed]
  cases hfind : c.arguments.find? fun p => p.name = k with
  | none => rfl
  | some p =>
      have hname : p.name = k := by simpa using List.find?_some hfind
      simp only [Option.bind_some, attribute?, ownAttribute?]
      cases c.entries? p with
      | some entries => simp [fillText_tableName hplain (hname ▸ hk)]
      | none => cases p.data <;> simp

theorem tableOf?_eq_none {p : Parameter} (h : Draft.tableOf? true p = none) :
    p.repeats = false ∧ p.data.bind Parameter.inlineTable? = none := by
  unfold Draft.tableOf? at h
  cases hinline : p.data.bind Parameter.inlineTable? with
  | some entries => simp [hinline] at h
  | none =>
      cases hrepeats : p.repeats with
      | true => simp [hinline, hrepeats] at h
      | false => exact ⟨rfl, rfl⟩

/-- A parameter that has to be a table, and hands on anything at all, is one. -/
theorem entries?_of_tableIssues {p : Parameter} {s : Signature}
    (hget : c.payload.parameters.get? p.name = some p) (hissues : c.tableIssues p.name = [])
    (hs : c.signature? = some s) (hk : p.name ∈ s.tables) (hentries : c.entries? p = none) :
    p.data = none := by
  have htable : Draft.tableOf? true p = none := by
    simpa [entries?, hs, Signature.isTable, hk] using hentries
  obtain ⟨hrepeats, hinline⟩ := tableOf?_eq_none htable
  cases hdata : p.data with
  | none => rfl
  | some data =>
      rw [hdata, Option.bind_some] at hinline
      simp [tableIssues, hget, hrepeats, hdata, hinline] at hissues

/-- An attribute that has to name a table names one of the component. -/
theorem table_of_attribute (hissues : c.compileIssues = []) (hkind : c.kind = .function)
    (hkeyed : c.Keyed) {s : Signature} (hs : Signature.function? c.function = some s) {k name : String}
    (hk : k ∈ s.tables) (hget : (c.ownAttributes vars).get? k = some name) :
    ∃ t ∈ c.tables, t.name = name := by
  have htable : c.tableIssues k = [] := by
    simp only [compileIssues, hkind, hs, signatureIssues, List.append_eq_nil_iff,
      List.flatMap_eq_nil_iff] at hissues
    exact hissues.2.2 k hk
  rw [get?_ownAttributes hkeyed] at hget
  cases hfind : c.arguments.find? fun p => p.name = k with
  | none =>
      rw [hfind] at hget
      cases hget
  | some p =>
      have hp : p ∈ c.arguments := List.mem_of_find?_eq_some hfind
      obtain rfl : p.name = k := by simpa using List.find?_some hfind
      rw [hfind, Option.bind_some] at hget
      unfold ownAttribute? at hget
      cases hentries : c.entries? p with
      | some entries =>
          refine ⟨_, mem_tables_iff.2 ⟨.inl hkind, p, hp, entries, hentries, rfl⟩, ?_⟩
          simpa [hentries] using hget
      | none =>
          -- a parameter that is no table hands nothing on, since the checks would have refused its data
          have hdata := entries?_of_tableIssues (get?_argument hkeyed hp) htable
            (by simp [signature?, hs]) hk hentries
          simp [hentries, hdata] at hget

/-- The function that a script builds for a component is the component's own. -/
theorem functionRead_iff_builds (hissues : c.compileIssues = []) (hseparate : j.Separate)
    {ps seen : List Component} {d : Draft} (hd : Draft.Holds j ps seen d) {s : Script}
    (hmaps : s.maps = d.maps) (hc : c ∈ seen) (hkeyed : c.Keyed)
    (hplain : Placeholder.Plain '[' c.id.toList) (hkind : c.kind = .function) {f : Function} :
    Morph.FunctionRead s c.call f ↔ c.Builds s.vars f := by
  have hmem := hd.known c (List.mem_append_right _ hc)
  have hcongr : Function.ofCall s.maps ⟨c.function, Morph.filled s.vars c.call.attributes⟩ =
      Function.ofCall c.ownTables ⟨c.function, c.ownAttributes s.vars⟩ := by
    refine Function.ofCall_congr (agree_ownAttributes hkeyed hplain) ?_
    -- a table that is asked for is one of the component, here and there
    intro sig hsig k hk name hname
    obtain ⟨t, ht, rfl⟩ := table_of_attribute hissues hkind hkeyed hsig hk hname
    rw [hmaps, hd.get?_table hseparate hc ht, get?_ownTables hseparate hmem ht]
  unfold Builds
  rw [← hcongr]
  rfl

/-- The call of a source with an ordinal counts with it. -/
theorem counting_read (hissues : c.ordinalIssues = []) {s : Script} {fs : List Function}
    (h : List.Forall₂ (Morph.FunctionRead s) c.counting fs) :
    fs = (c.ordinal?.map Function.occurrence).toList := by
  unfold counting at h
  unfold ordinalIssues at hissues
  unfold ordinal?
  cases hraw : c.payload.data? ordinalParameter with
  | none =>
      rw [hraw] at h
      cases h
      rfl
  | some raw =>
      rw [hraw] at h hissues
      -- without an issue the ordinal is a count above zero
      have hordinal : isOrdinal raw = true := by
        by_cases hn : isOrdinal raw = true
        · exact hn
        · simp [hn] at hissues
      unfold isOrdinal at hordinal
      cases hread : Count.read Count.max64 (Text.trim raw).toList with
      | error e => simp [hread] at hordinal
      | ok n =>
          have hn : n ≠ 0 := by simpa [hread] using hordinal
          -- what reads as a count has no dollar in it, so filling in variables leaves it alone
          have hfill : Morph.fillText s.vars (Text.trim raw) = Text.trim raw :=
            Placeholder.fill_parts_of_plain
              (Placeholder.plain_of_not_mem (Count.not_dollar_of_read hread)) _
          have honly : (Morph.filled s.vars (.ofList [("only", Text.trim raw)])).get? "only" =
              some (Text.trim raw) := by
            have hget : (OrderedMap.ofList [("only", Text.trim raw)]).get? "only" =
                some (Text.trim raw) := rfl
            rw [Morph.get?_filled, hget, Option.map_some, hfill]
          cases h with
          | @cons _ f _ _ hf hrest =>
              cases hrest
              unfold Morph.FunctionRead at hf
              rw [Function.ofCall_occurrence honly hread hn] at hf
              obtain rfl := Except.ok.inj hf
              simp [hread, Except.toOption]

end Component

/-! ## Routes -/

namespace Job

variable {j : Job} {ps seen : List Component} {d : Draft} {s : Script}

/-- What a script of the rules of a draft says of the filter of a source. -/
theorem filters_of_filterRead (hj : j.Accepted) (hd : Draft.Holds j ps seen d)
    (hfilters : s.filters = d.filters) {c : Component} (hc : c ∈ seen) (hkind : c.kind = .source)
    {filter : Option ValueFilter}
    (h : Morph.FilterRead s (c.filter.map fun _ => c.id) filter) : c.Filters filter := by
  unfold Component.Filters
  cases hf : c.filter with
  | none => simpa [hf, Morph.FilterRead] using h
  | some f =>
      rw [hf] at h
      obtain ⟨g, v, hget, hv, hfilter⟩ := h
      rw [hfilters, hd.get?_filter hj hc hkind hf] at hget
      obtain rfl := Option.some.inj hget
      exact ⟨v, hv, hfilter⟩

/-- The functions of a pipe are those of the chain that its rule reads, each one the component's own,
after the one that counts. -/
theorem functions_of_pipe (hj : j.compileIssues = []) (hseparate : j.Separate)
    (hkeyed : ∀ c ∈ j.components, c.Keyed)
    (hplain : ∀ c ∈ j.components, Placeholder.Plain '[' c.id.toList)
    (hd : Draft.Holds j ps seen d) (hmaps : s.maps = d.maps) {name input : String}
    {start : Component} {through : List Component} (chain : j.Chain input start through)
    (hseen : ∀ f ∈ start :: through, f ∈ seen) {output : Pipe.Output} {p : Pipe}
    (hp : Morph.PipeRead s (start.ruleNamed name through) output p) :
    ∃ own, p.functions = start.counter ++ own ∧
      List.Forall₂ (Component.Builds s.vars) through own := by
  -- every component of the chain has been seen, so its tables are in the script
  have hown : ∀ {own}, List.Forall₂ (Morph.FunctionRead s) (through.map Component.call) own →
      List.Forall₂ (Component.Builds s.vars) through own := by
    intro own hread
    rw [List.forall₂_map_left_iff] at hread
    have hthrough : ∀ f ∈ through, f ∈ seen ∧ f.kind = .function := fun f hf =>
      ⟨hseen f (List.mem_cons_of_mem _ hf), (chain.mem.2 f hf).2⟩
    refine ((List.forall₂_and_left _ _).2 ⟨hthrough, hread⟩).imp ?_
    rintro f g ⟨⟨hf, hfkind⟩, hfunction⟩
    have hmem := hd.known f (List.mem_append_right _ hf)
    exact (Component.functionRead_iff_builds (compileIssues_of_mem hj hmem) hseparate hd hmaps hf
      (hkeyed f hmem) (hplain f hmem) hfkind).1 hfunction
  have hfunctions := hp.functions
  rcases chain.start_kind with hkind | hkind
  · simp only [Component.ruleNamed, Component.reading, hkind] at hfunctions
    obtain ⟨counted, own, hsplit, hcounted, hread⟩ := append_of_forall₂_append hfunctions
    -- the checks of the job have read the ordinal already
    have hordinal : start.ordinalIssues = [] := by
      have hissues := compileIssues_of_mem hj chain.mem.1
      simp only [Component.compileIssues, hkind, List.append_eq_nil_iff] at hissues
      exact hissues.1
    refine ⟨own, ?_, hown hread⟩
    rw [hsplit, Component.counting_read hordinal hcounted]
    simp [Component.counter, hkind]
  · simp only [Component.ruleNamed, Component.reading, hkind] at hfunctions
    exact ⟨p.functions, by simp [Component.counter, hkind], hown hfunctions⟩

/-- The pipe that a script has for a target is that of the target's route. -/
theorem route_of_pipe (hj : j.compileIssues = []) (hsimple : j.Simple)
    (hd : Draft.Holds j ps seen d)
    (hs : s = ⟨j.name, j.vars, d.rules, d.maps, d.filters⟩) {t : Component} (ht : t ∈ ps)
    {r : Script.DataRule} (hrule : j.RuleOf t (.data r)) {p : Pipe}
    (hp : Morph.PipeRead s r (.emit (Morph.outputName r)) p) :
    ∃ route, j.RouteOf t route ∧ p = route.pipe := by
  have haccepted := accepted_of_compileIssues hj
  have hseparate := separate_of_dotless haccepted hsimple.keyed (.inl hsimple.dotless)
  cases hrule with
  | @target input _ hkind hinput rule =>
      cases rule with
      | @of source through chain =>
          -- all components of the chain have been seen, so their tables and filters are in the script
          obtain ⟨before, after, heq⟩ := List.append_of_mem ht
          obtain ⟨hseen, -⟩ := hd.begun before t after heq input (by simp [hinput]) _ _ chain
          have hmem := hd.known source (List.mem_append_right _ (hseen source List.mem_cons_self))
          have hsource : source.kind = .source := by
            rcases chain.start_kind with hk | hk
            · exact hk
            · exact absurd hk (hsimple.no_collectors source hmem)
          obtain ⟨functions, hfunctions, hbuilds⟩ := functions_of_pipe hj hseparate hsimple.keyed
            hsimple.plain hd (by rw [hs]) chain hseen hp
          have hreading : source.ruleNamed t.path through =
              ⟨source.path, some t.path, source.filter.map fun _ => source.id,
                source.counting ++ through.map Component.call⟩ := by
            simp [Component.ruleNamed, Component.reading, hsource]
          rw [hreading] at hp
          rw [hs] at hbuilds
          refine ⟨_, .of hinput chain hsource
            (filters_of_filterRead haccepted hd (by rw [hs]) (hseen source List.mem_cons_self) hsource
              hp.filter) hbuilds, ?_⟩
          cases p with
          | mk psource pfilter pfunctions poutput =>
              obtain rfl := hp.source
              obtain rfl := hp.output
              obtain rfl : pfunctions = source.counter ++ functions := hfunctions
              simp only [Component.counter, hsource]
              rfl

/-- Without collectors, all rules are data rules. -/
theorem data_rules {ts : List Component} {rules : List Script.Rule}
    (h : List.Forall₂ j.RuleOf ts rules) (hno : ∀ c ∈ ts, c.kind ≠ .collector) :
    ∃ rs : List Script.DataRule, rules = rs.map .data ∧
      List.Forall₂ (fun t r => j.RuleOf t (.data r)) ts rs := by
  induction h with
  | nil => exact ⟨[], rfl, .nil⟩
  | cons hrule _ ih =>
      obtain ⟨rs, rfl, hrs⟩ := ih fun c hc => hno c (List.mem_cons_of_mem _ hc)
      cases hrule with
      | @target _ r hkind hinput rule =>
          exact ⟨r :: rs, rfl, .cons (.target hkind hinput rule) hrs⟩
      | collector hkind _ => exact absurd hkind (hno _ List.mem_cons_self)

/-- Pipes that have become of the rules of targets are those of their routes. -/
theorem routes_of_pipes (hj : j.compileIssues = []) (hsimple : j.Simple)
    (hd : Draft.Holds j ps seen d) (hs : s = ⟨j.name, j.vars, d.rules, d.maps, d.filters⟩)
    {ts : List Component} (hts : ts ⊆ ps) {rs : List Script.DataRule} {pipes : List Pipe}
    (hrules : List.Forall₂ (fun t r => j.RuleOf t (.data r)) ts rs)
    (hpipes : List.Forall₂ (fun r p => Morph.PipeRead s r (.emit (Morph.outputName r)) p) rs pipes) :
    ∃ routes, List.Forall₂ j.RouteOf ts routes ∧ pipes = routes.map Route.pipe := by
  induction hrules generalizing pipes with
  | nil =>
      cases hpipes
      exact ⟨[], .nil, rfl⟩
  | cons hrule _ ih =>
      cases hpipes with
      | cons hp hrest =>
          obtain ⟨routes, hroutes, rfl⟩ := ih (fun c hc => hts (List.mem_cons_of_mem _ hc)) hrest
          obtain ⟨route, hroute, rfl⟩ :=
            route_of_pipe hj hsimple hd hs (hts List.mem_cons_self) hrule hp
          exact ⟨route :: routes, .cons hroute hroutes, rfl⟩

/-- The routes of a simple job are plain. -/
theorem plain_routes (hsimple : j.Simple) {ts : List Component} (hts : ts ⊆ j.targets)
    {routes : List Route} (h : List.Forall₂ j.RouteOf ts routes) : Route.Plain routes := by
  intro r hr
  obtain ⟨t, ht, hroute⟩ := exists_of_mem_right h hr
  cases hroute with
  | of hinput chain hsource _ _ =>
      have hmem : _ ∈ j.sources := List.mem_filter.2 ⟨chain.mem.1, by simpa using hsource⟩
      exact ⟨hsimple.sources _ hmem, hsimple.targets t (hts ht)⟩

/-! ## Runs -/

/-- The compiled script of a job without collectors can be run, and for whole records hands on what
the routes of the targets, in their order, make of them. -/
theorem compile_correct (h : j.compile = .ok s) (hsimple : j.Simple) :
    ∃ m routes, Morph.ofScript s = .ok m ∧ List.Forall₂ j.RouteOf j.targets routes ∧
      ∀ qs : List WholeRecord,
        (m.run (qs.flatMap WholeRecord.events)).out = qs.flatMap (Route.record routes) ∧
          (m.run (qs.flatMap WholeRecord.events)).refusal = none := by
  obtain ⟨hissues, hdraft, m, hm⟩ := compile_ok h
  have hj := accepted_of_compileIssues hissues
  obtain ⟨ps, seen, d, hd, hs, htargets, -⟩ := draft_holds hj hdraft
  have hno : ∀ c ∈ ps, c.kind ≠ .collector := fun c hc =>
    hsimple.no_collectors c (hd.known c (List.mem_append_left _ hc))
  -- without collectors every rule is that of a target
  have hps : ps = j.targets := by
    rw [← htargets, List.filter_eq_self.2]
    intro c hc
    obtain ⟨r, -, hrule⟩ := exists_of_mem_left hd.rules hc
    cases hrule with
    | target hkind _ _ => simpa using hkind
    | collector hkind _ => exact absurd hkind (hno c hc)
  obtain ⟨rs, hrs, hrules⟩ := data_rules hd.rules hno
  obtain ⟨hcollectors, hpipes⟩ := Morph.ofScript_data (by rw [hs]; exact hrs) hm
  obtain ⟨routes, hroutes, hmap⟩ :=
    routes_of_pipes hissues hsimple hd hs (List.Subset.refl _) hrules hpipes
  have hmorph : m = Route.morph routes := by
    cases m with
    | mk pipes collectors =>
        obtain rfl : collectors = [] := hcollectors
        obtain rfl : pipes = routes.map Route.pipe := hmap
        rfl
  rw [hps] at hroutes
  refine ⟨m, routes, hm, hroutes, fun qs => ?_⟩
  rw [hmorph, Route.run_morph (plain_routes hsimple (List.Subset.refl _) hroutes)]
  exact ⟨rfl, rfl⟩

/-- A job that looks up the second title of a record, with a variable as the default. -/
def coded : Job :=
  ⟨"j", "codes",
    [⟨"S", "title", .source, ⟨"title", .ofList [("ordinal", .ofData "ordinal" "2")]⟩, [], ["F"],
        none⟩,
     ⟨"F", "lookup", .function, ⟨"lookup", .ofList [("in", .ofBlock "in" [.ofData "a" "b"]),
        ("default", .ofData "default" "$[none]")]⟩, ["S"], ["T"], none⟩,
     ⟨"T", "code", .target, ⟨"code", .empty⟩, ["F"], [], none⟩],
    .ofList [("none", "?")]⟩

def codedScript : Script :=
  ⟨"codes", .ofList [("none", "?")],
    [.data ⟨"title", some "code", none, [⟨"occurrence", .ofList [("only", "2")]⟩,
      ⟨"lookup", .ofList [("in", "F.in"), ("default", "$[none]")]⟩]⟩],
    .ofList [("F.in", ⟨"F.in", [⟨"a", some "b", []⟩]⟩)], .empty⟩

theorem coded_simple : coded.Simple where
  no_collectors := by decide
  dotless := by decide
  plain := by decide
  keyed := by decide
  sources := by decide
  targets := by decide

/-- A job with a filter, an ordinal, a table and a variable, run on any records. -/
theorem compile_correct_coded : coded.compile = .ok codedScript ∧ coded.Simple ∧
    ∃ m routes, Morph.ofScript codedScript = .ok m ∧
      List.Forall₂ coded.RouteOf coded.targets routes ∧
      ∀ qs : List WholeRecord,
        (m.run (qs.flatMap WholeRecord.events)).out = qs.flatMap (Route.record routes) ∧
          (m.run (qs.flatMap WholeRecord.events)).refusal = none := by
  have h : coded.compile = .ok codedScript := by decide +kernel
  exact ⟨h, coded_simple, compile_correct h coded_simple⟩

end Job
end Recast
