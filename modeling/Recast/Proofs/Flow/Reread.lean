import Recast.Decoder.Standard
import Recast.Flow.Basic
import Recast.Proofs.Graph.Forms
import Recast.Proofs.Graph.Rederived
import Recast.Proofs.Result

/-!
# Reread — models of documents that are stored and read back

The schema of a model is not stored: it is derived again from the statements.  It comes back with
the paths of the entities that nothing is stated about, and otherwise as it was:
`Flow.mem_schema_reread_iff`.  The model itself need not have these paths: `Flow.schemas_differ`.
-/

namespace Recast
namespace Flow

open Encoder (Classing Surveyed LeadsToEmpty)

/-! ## What the encoder makes of a document -/

/-- The events that come to the encoder. -/
def handed (f : Flow) (input : String) : List Event :=
  (pass f.skip f.program f.dataModel (f.decoder.decode input).events).handed

/-- The model of a document before the flow gives its records a class. -/
def encoded (f : Flow) (input : String) : Model :=
  (Encoder.run f.dataModel (f.handed input)).state.model

/-- The class that the flow gives to the records of a model. -/
def given? (f : Flow) (m : Model) : Option String :=
  if m.recordClass.isSome then none else f.defaultClass

/-- The classes that are stated in the model of a document, with the class that the flow gives to its
records. -/
def classings (f : Flow) (input : String) : List Classing :=
  Encoder.classings f.dataModel (f.handed input) Encoder.initial ++
    (f.given? (f.encoded input)).toList.flatMap fun c => (f.encoded input).recordUris.map (⟨·, c⟩)

def classPath : AttributePath := AttributePath.empty.child Name.typePredicate

/-! ## What comes back -/

section Reread

variable {f : Flow} {input : String} {m n : Model}

/-- A document that is accepted has been encoded without a refusal, and its records have been given
the class of the flow. -/
theorem apply_ok (h : (f.apply input).result = .ok m) :
    (Encoder.run f.dataModel (f.handed input)).refusal = none ∧
      f.classed (f.encoded input) = .ok m := by
  -- where the stream has been passed on, neither the encoder nor the program refused
  have hpass : ∀ n, (pass f.skip f.program f.dataModel (f.decoder.decode input).events).result =
      .ok n → (Encoder.run f.dataModel (f.handed input)).refusal = none ∧ f.encoded input = n := by
    intro n hn
    simp only [pass] at hn
    split at hn
    · cases hn
    · rename_i hnone
      exact ⟨(Option.or_eq_none_iff.1 hnone).1, Except.ok.inj hn⟩
  simp only [apply] at h
  split at h
  · cases h
  · cases h
  · rename_i n count hn hcount
    obtain ⟨haccepted, rfl⟩ := hpass n hn
    exact ⟨haccepted, mapError_eq_ok.1 h⟩

/-- Giving records their class keeps them as they should be, and adds no path to the model. -/
theorem classify_surveyed {d : DataModel} {ws : List Encoder.Way} {cs : List Classing}
    {nodes : List Encoder.Made} {schema : OrderedSet AttributePath} {c : String}
    (h : Surveyed d ws cs nodes n schema) (hclass : ∀ record ∈ n.recordUris, ⟨record, c⟩ ∈ cs)
    (hpath : classPath ∈ schema.toList) (hm : classify c n = .ok m) :
    Surveyed d ws cs nodes m schema ∧ m.schema = n.schema := by
  obtain ⟨stated, hstated, hm⟩ := bind_eq_ok.1 hm
  obtain rfl := Except.ok.inj hm
  -- the statements are added one after the other
  have hkept : Surveyed d ws cs nodes stated schema ∧ stated.schema = n.schema := by
    refine foldlM_ok_invariant (p := fun k => Surveyed d ws cs nodes k schema ∧ k.schema = n.schema)
      ?_ ⟨h, rfl⟩ hstated
    intro record hrecord k k' hk hstep
    obtain ⟨st, hst, hk'⟩ := bind_eq_ok.1 hstep
    obtain rfl := Except.ok.inj hk'
    obtain ⟨hsubject, hpredicate, hobject⟩ := Encoder.make?_eq_ok (mapError_eq_ok.1 hst)
    have hlisted : AttributePath.empty.child st.predicate ∈ schema.toList := by
      rw [hpredicate]
      exact hpath
    exact ⟨hk.1.classify hsubject hobject (hclass record hrecord) hlisted, hk.2⟩
  -- the class of the records is no statement
  obtain ⟨hsurveyed, hschema⟩ := hkept
  exact ⟨⟨hsurveyed.records, hsurveyed.covered⟩, hschema⟩

/-- What a flow makes of a document fits a schema that has besides the paths of the model at most that
of the class of records. -/
theorem classed_surveyed {d : DataModel} {ws : List Encoder.Way} {cs : List Classing}
    {nodes : List Encoder.Made} (h : Surveyed d ws cs nodes n n.schema)
    (hclass : ∀ c, f.given? n = some c → ∀ record ∈ n.recordUris, ⟨record, c⟩ ∈ cs)
    (hm : f.classed n = .ok m) :
    ∃ schema, Surveyed d ws cs nodes m schema ∧
      ∀ p ∈ schema.toList, p ∈ m.schema.toList ∨ (f.given? n ≠ none ∧ p = classPath) := by
  unfold classed at hm
  -- only where a class is given and the model names none is it stated afterwards
  split at hm
  · rename_i c hdefault hnone
    have hgiven : f.given? n = some c := by simp [given?, hnone, hdefault]
    have hlarger : Surveyed d ws cs nodes n (n.schema.insert classPath) :=
      h.mono (n.schema.subset_insert _)
    obtain ⟨hsurveyed, hschema⟩ := classify_surveyed hlarger (hclass c hgiven)
      (OrderedSet.mem_insert.2 (.inr rfl)) hm
    refine ⟨_, hsurveyed, fun p hp => ?_⟩
    rw [hschema, hgiven]
    rcases OrderedSet.mem_insert.1 hp with hold | hnew
    · exact .inl hold
    · exact .inr ⟨by simp, hnew⟩
  · obtain rfl := Except.ok.inj hm
    exact ⟨_, h, fun p hp => .inl hp⟩

/-- Whatever a flow does, and whatever the document, its model can be read back from what is stored of
it.  Let the records of the document have different URIs, let no class have statements about it in its
record, and let literals come to the shared entities of a record by one path each.  Then the paths of
the model that has been read back are those of the model and those that lead to entities which nothing
is stated about; only the path of a class that the flow itself gives to records is left open. -/
theorem mem_schema_reread_iff (happly : (f.apply input).result = .ok m)
    (hdistinct : (Encoder.recordUris f.dataModel (f.handed input)).Nodup)
    (hclasses : ∀ c ∈ f.classings input,
      ∀ st ∈ (m.statementsOf c.record).toList, st.subject ≠ c.uri)
    (hconsistent : Encoder.Consistent (Encoder.ways f.dataModel (f.handed input) Encoder.initial)) :
    ∃ m', Model.ofJson m.toJson = .ok m' ∧
      ∀ p, f.given? (f.encoded input) = none ∨ p ≠ classPath →
        (p ∈ m'.schema.toList ↔ p ∈ m.schema.toList ∨
          LeadsToEmpty f.dataModel (Encoder.made f.dataModel (f.handed input) Encoder.initial) m p) := by
  obtain ⟨haccepted, hclassed⟩ := apply_ok happly
  have hrun : Surveyed f.dataModel _ (f.classings input) _ (f.encoded input) (f.encoded input).schema :=
    Encoder.surveyed_run haccepted hdistinct (List.subset_append_left _ _) hconsistent
  -- a class that is given is stated of the records there are
  have hgiven : ∀ c, f.given? (f.encoded input) = some c →
      ∀ record ∈ (f.encoded input).recordUris, ⟨record, c⟩ ∈ f.classings input := by
    intro c hc record hrecord
    refine List.mem_append_right _ (List.mem_flatMap.2 ⟨c, Option.mem_toList.2 hc, ?_⟩)
    exact List.mem_map_of_mem hrecord
  obtain ⟨schema, hsurveyed, hschema⟩ := classed_surveyed hrun hgiven hclassed
  refine ⟨_, Model.ofJson_toJson m, fun p hp => ?_⟩
  obtain ⟨hderived, hkept⟩ := hsurveyed.mem_derivedSchema hclasses p
  refine ⟨fun hmem => ?_, hkept⟩
  -- what is derived is in the schema, or leads to an entity of which nothing is stated
  rcases hderived hmem with hin | hempty
  · rcases hschema p hin with hold | ⟨hasserted, hclass⟩
    · exact .inl hold
    · exact absurd hclass (hp.resolve_left hasserted)
  · exact .inr hempty

end Reread

/-- A flow that hands on all of a Json text, and gives a class to records if none has one. -/
def keeping : Flow :=
  ⟨.identity, DecoderOptions.standard.json.decoder, .standard, ⟨[], [], []⟩,
    some Name.defaultRecordClass⟩

/-- Two records with entities and dotted names, one with a class and one with an empty entity. -/
def branching : String :=
  "[\x7b\"a.b\":\"x\",\"e\":\x7b\"c.d\":\"y\",\"rdf:type\":\"http://example.org/C\"\x7d,\"a.f\":\"z\"\x7d," ++
    "\x7b\"e\":\x7b\x7d,\"g\":\x7b\"a.b\":\"w\"\x7d\x7d]"

def modelOf (f : Flow) (input : String) : Model :=
  (f.apply input).result.toOption.getD .empty

theorem apply_modelOf {f : Flow} {input : String}
    (h : (f.apply input).result.toOption.isSome = true) :
    (f.apply input).result = .ok (f.modelOf input) := by
  unfold modelOf
  cases hresult : (f.apply input).result with
  | error e =>
      rw [hresult] at h
      cases h
  | ok m => rfl

theorem mem_schema_reread_iff_branching :
    (keeping.apply branching).result = .ok (keeping.modelOf branching) ∧
      ∃ m', Model.ofJson (keeping.modelOf branching).toJson = .ok m' ∧
        ∀ p, p ∈ m'.schema.toList ↔ p ∈ (keeping.modelOf branching).schema.toList ∨
          LeadsToEmpty .standard
            (Encoder.made .standard (keeping.handed branching) Encoder.initial)
            (keeping.modelOf branching) p := by
  have hhanded : keeping.handed branching =
      [.startRecord "1", .literal "a.b" "x", .startEntity "e", .literal "c.d" "y",
        .literal "rdf:type" "http://example.org/C", .endEntity, .literal "a.f" "z", .endRecord,
        .startRecord "2", .startEntity "e", .endEntity, .startEntity "g", .literal "a.b" "w",
        .endEntity, .endRecord] := by decide +kernel
  have haccepted : (keeping.apply branching).result.toOption.isSome = true := by decide +kernel
  have hdistinct : (Encoder.recordUris .standard (keeping.handed branching)).Nodup := by
    rw [hhanded]
    decide +kernel
  have hclasses : ∀ c ∈ keeping.classings branching,
      ∀ st ∈ ((keeping.modelOf branching).statementsOf c.record).toList, st.subject ≠ c.uri := by
    rw [classings, encoded, hhanded]
    decide +kernel
  have hconsistent : Encoder.Consistent
      (Encoder.ways .standard (keeping.handed branching) Encoder.initial) := by
    rw [hhanded]
    decide +kernel
  have hgiven : keeping.given? (keeping.encoded branching) = none := by
    rw [encoded, hhanded]
    decide +kernel
  -- no class is given, so no path is left out
  have happly := apply_modelOf haccepted
  obtain ⟨m', hread, hpaths⟩ := mem_schema_reread_iff happly hdistinct hclasses hconsistent
  exact ⟨happly, m', hread, fun p => hpaths p (.inl hgiven)⟩

/-! ## What does not come back as it was -/

/-- The paths of the model of a document, and those of the model that is read back. -/
def schemas (f : Flow) (input : String) : Option (List AttributePath × List AttributePath) := do
  let m ← (f.apply input).result.toOption
  let m' ← (Model.ofJson m.toJson).toOption
  return (m.schema.toList, m'.schema.toList)

/-- The paths that are read back are derived from the statements of the record, if there is one. -/
theorem schemas_eq {f : Flow} {input record : String} {ss : List Statement}
    {ps qs : List AttributePath}
    (happly : ((f.apply input).result.toOption.map fun m =>
      (m.schema.toList, m.records.toList.map fun r => (r.1, r.2.toList))) = some (ps, [(record, ss)]))
    (hpaths : Schema.paths record ss = qs) (hnodup : qs.Nodup) :
    f.schemas input = some (ps, qs) := by
  obtain ⟨m, hm, hparts⟩ := Option.map_eq_some_iff.1 happly
  obtain ⟨hschema, hrecords⟩ := Prod.mk.inj hparts
  have hderived : m.derivedSchema.toList = qs := by
    have hsame : m.derivedSchema = .ofList ((m.records.toList.map fun r => (r.1, r.2.toList)).flatMap
        fun r => Schema.paths r.1 r.2) := by
      rw [List.flatMap_map]
      rfl
    calc m.derivedSchema.toList
        = (OrderedSet.ofList (Schema.paths record ss)).toList := by
          rw [hsame, hrecords, List.flatMap_singleton]
      _ = (OrderedSet.ofList qs).toList := by rw [hpaths]
      _ = qs := congrArg OrderedSet.toList (OrderedSet.ofList_toList ⟨qs, hnodup⟩)
  simp only [schemas, hm, Model.ofJson_toJson]
  rw [← hschema, ← hderived]
  rfl

def plain : Flow :=
  { keeping with defaultClass := none }

def hollow : String := "[\x7b\"e\":\x7b\x7d\x7d]"

def looping : String :=
  "[\x7b\"e\":\x7b\"x\":\"v\"\x7d,\"rdf:type\":\"http://data.dswarm.org/records/1/e/1\"\x7d]"

/-- A record that comes to a shared entity by two paths. -/
def meeting : String := "[\x7b\"a.b.c\":\"x\",\"a/b.d\":\"y\"\x7d]"

/-- The path of names in the standard schema. -/
def pathTo (names : List String) : AttributePath := ⟨names.map (Encoder.predicate .standard)⟩

/-- The schema does not come back as it was if a record has an empty entity, names an entity as its
class, or comes to a shared entity by two paths. -/
theorem schemas_differ :
    (∀ input ∈ [hollow, looping, meeting],
        (Encoder.recordUris .standard (plain.handed input)).Nodup) ∧
      plain.schemas hollow = some ([], [pathTo ["e"]]) ∧
      plain.schemas looping = some ([pathTo ["e", "x"], classPath], [pathTo ["e", "x"]]) ∧
      plain.schemas meeting =
        some ([pathTo ["a", "b", "c"], pathTo ["a/b", "d"]],
          [pathTo ["a", "b", "c"], pathTo ["a", "b", "d"]]) := by
  -- the walks are unfolded by hand, since the kernel does not evaluate them
  refine ⟨by decide +kernel, ?hollow, ?looping, ?meeting⟩
  case hollow =>
    have hpaths : Schema.paths "http://data.dswarm.org/records/1"
        [⟨"http://data.dswarm.org/records/1", "http://data.dswarm.org/schema#e",
          .resource "http://data.dswarm.org/records/1/e/1", by decide, by decide, by decide⟩] =
        [⟨["http://data.dswarm.org/schema#e"]⟩] := by
      simp [Schema.paths, Schema.about, Schema.walk, Schema.link?, AttributePath.child,
        AttributePath.empty]
    exact schemas_eq (by decide +kernel) hpaths (by decide)
  case looping =>
    have hpaths : Schema.paths "http://data.dswarm.org/records/1"
        [⟨"http://data.dswarm.org/records/1", "http://data.dswarm.org/schema#e",
            .resource "http://data.dswarm.org/records/1/e/1", by decide, by decide, by decide⟩,
          ⟨"http://data.dswarm.org/records/1/e/1", "http://data.dswarm.org/schema#x",
            .literal "v", by decide, by decide, by decide⟩,
          ⟨"http://data.dswarm.org/records/1", Name.typePredicate,
            .resource "http://data.dswarm.org/records/1/e/1", by decide, by decide, by decide⟩] =
        [⟨["http://data.dswarm.org/schema#e", "http://data.dswarm.org/schema#x"]⟩] := by
      simp [Schema.paths, Schema.about, Schema.walk, Schema.link?, AttributePath.child,
        AttributePath.empty]
    exact schemas_eq (by decide +kernel) hpaths (by decide)
  case meeting =>
    have hpaths : Schema.paths "http://data.dswarm.org/records/1"
        [⟨"http://data.dswarm.org/records/1", "http://data.dswarm.org/schema#a",
            .resource "http://data.dswarm.org/records/1/a/1", by decide, by decide, by decide⟩,
          ⟨"http://data.dswarm.org/records/1/a/1", "http://data.dswarm.org/schema#b",
            .resource "http://data.dswarm.org/records/1/a/b/1", by decide, by decide, by decide⟩,
          ⟨"http://data.dswarm.org/records/1/a/b/1", "http://data.dswarm.org/schema#c",
            .literal "x", by decide, by decide, by decide⟩,
          ⟨"http://data.dswarm.org/records/1/a/b/1", "http://data.dswarm.org/schema#d",
            .literal "y", by decide, by decide, by decide⟩] =
        [⟨["http://data.dswarm.org/schema#a", "http://data.dswarm.org/schema#b",
            "http://data.dswarm.org/schema#c"]⟩,
          ⟨["http://data.dswarm.org/schema#a", "http://data.dswarm.org/schema#b",
            "http://data.dswarm.org/schema#d"]⟩] := by
      simp [Schema.paths, Schema.about, Schema.walk, Schema.link?, AttributePath.child,
        AttributePath.empty]
    exact schemas_eq (by decide +kernel) hpaths (by decide)

end Flow
end Recast
