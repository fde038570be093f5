import Recast.Markup.Outline
import Recast.Script.Basic

/-!
# Writer — scripts as documents

The sections of a script are written in a fixed order.  The name and the rules are always there;
variables, tables and filters only if there are any.  Everything else keeps the order it has.
-/

namespace Recast

open Markup (Outline)

namespace Script

def Call.outline (c : Call) : Outline :=
  .leaf c.name c.attributes.toList

/-- An element that is one tag if there is nothing inside it. -/
def fold (name : String) (as : List (String × String)) (children : List Outline) : Outline :=
  if children.isEmpty then .leaf name as else .block name as children

/-- An attribute, if it has a value. -/
def optional (name : String) (value : Option String) : List (String × String) :=
  match value with
  | some v => [(name, v)]
  | none => []

def DataRule.outline (r : DataRule) : Outline :=
  fold "data" (("source", r.source) :: optional "name" r.name ++ optional "filter" r.filter)
    (r.functions.map Call.outline)

/-- A rule; a collect rule always has two tags. -/
def Rule.outline : Rule → Outline
  | .data r => r.outline
  | .collect r =>
      .block r.kind (("name", r.name) :: r.attributes.toList) (r.inputs.map DataRule.outline)

mutual
def Entry.outline : Entry → Outline
  | ⟨name, value, entries⟩ =>
      fold "entry" (("name", name) :: optional "value" value) (Entry.outlines entries)

def Entry.outlines : List Entry → List Outline
  | [] => []
  | e :: rest => Entry.outline e :: Entry.outlines rest
end

def Table.outline (t : Table) : Outline :=
  fold "map" [("name", t.name)] (Entry.outlines t.entries)

/-- A section that is left out if it is empty. -/
def sectionOf (name : String) (children : List Outline) : List Outline :=
  if children.isEmpty then [] else [.block name [] children]

def nameOutline (name : String) : Outline :=
  if name = "" then .leaf "name" [] else .line "name" name

def outline (s : Script) : Outline :=
  .block "metamorph"
    [("xmlns", "http://www.culturegraph.org/metamorph"), ("version", "1"), ("entityMarker", ".")]
    (.block "meta" [] [nameOutline s.name] ::
      sectionOf "vars" (s.vars.toList.map fun v => .leaf "var" [("name", v.1), ("value", v.2)]) ++
      [fold "rules" [] (s.rules.map Rule.outline)] ++
      sectionOf "maps" (s.maps.values.map Table.outline) ++
      sectionOf "filters" (s.filters.toList.map fun f =>
        .leaf "filter"
          [("name", f.1), ("type", f.2.dialect.word), ("expression", f.2.expression)]))

def toText (s : Script) : String :=
  s.outline.document

end Script
end Recast
