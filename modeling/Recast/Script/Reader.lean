import Recast.Markup.Node
import Recast.Script.Basic
import Recast.Text.Blank

/-!
# Reader — scripts from their documents

A script is an element `metamorph` with sections for its name, variables, rules, tables and filters.
Sections may be missing, repeated and in any order.  Every element among the rules that is not
called `data` is a collect rule of this kind.

* `Script.ofNode` — the script of a root element;
* `Script.ofText` — the script of a text.
-/

namespace Recast

namespace Script

inductive ReadError where
  /-- The text is no document. -/
  | document
  | root (name : String)
  | missingAttribute (element attribute_ : String)
  | unexpectedElement (parent child : String)
  | unknownDialect (word : String)
  deriving DecidableEq, Repr

def ReadError.message : ReadError → String
  | .document => "invalid XML: <xml>"
  | .root name => s!"expected <metamorph> root, found <{name}>"
  | .missingAttribute element a => s!"<{element}> is missing attribute '{a}'"
  | .unexpectedElement parent child => s!"<{parent}> may not contain <{child}>"
  | .unknownDialect word => Dialect.unknownMessage word

/-! ## Rules -/

def required (n : Markup.Node) (attribute_ : String) : Except ReadError String :=
  match n.attribute? attribute_ with
  | some v => .ok v
  | none => .error (.missingAttribute n.name attribute_)

/-- The attributes of an element by their local names, one of them left out. -/
def attributesBut (skipped : String) (n : Markup.Node) : OrderedMap String String :=
  .ofList ((n.attributes.filter fun a => a.name ≠ skipped).map fun a => (a.name, a.value))

/-- All attributes of an element by their local names. -/
def attributesOf (n : Markup.Node) : OrderedMap String String :=
  .ofList (n.attributes.map fun a => (a.name, a.value))

def dataRule (n : Markup.Node) : Except ReadError DataRule := do
  let source ← required n "source"
  return ⟨source, n.attribute? "name", n.attribute? "filter",
    n.elements.map fun f => ⟨f.name, attributesOf f⟩⟩

def inputRule (kind : String) (n : Markup.Node) : Except ReadError DataRule :=
  if n.name = "data" then dataRule n else .error (.unexpectedElement kind n.name)

def rule (n : Markup.Node) : Except ReadError Rule := do
  if n.name = "data" then return .data (← dataRule n)
  let inputs ← n.elements.mapM (inputRule n.name)
  let name ← required n "name"
  return .collect ⟨n.name, name, attributesBut "name" n, inputs⟩

/-! ## Tables and filters -/

mutual
def entry : Markup.Node → Except ReadError Entry
  | .element tag label as children => do
      let n : Markup.Node := .element tag label as children
      let name ← required n "name"
      let entries ← entriesIn children
      return ⟨name, n.attribute? "value", entries⟩
  | _ => .error .document

def entriesIn : List Markup.Node → Except ReadError (List Entry)
  | [] => .ok []
  | .element tag label as children :: rest => do
      let e ← entry (.element tag label as children)
      let es ← entriesIn rest
      return e :: es
  | .text _ :: rest => entriesIn rest
  | .mark :: rest => entriesIn rest
end

def table (n : Markup.Node) : Except ReadError Table := do
  let name ← required n "name"
  let entries ← entriesIn n.children
  return ⟨name, entries⟩

def namedFilter (n : Markup.Node) : Except ReadError (String × Filter) := do
  let name ← required n "name"
  let dialect ← match n.attribute? "type" with
    | none => .ok .regex
    | some word =>
        match Dialect.ofWord? word with
        | some d => .ok d
        | none => .error (.unknownDialect word)
  let expression ← required n "expression"
  return (name, ⟨expression, dialect⟩)

/-! ## Sections -/

def variable_ (n : Markup.Node) : Except ReadError (String × String) := do
  let name ← required n "name"
  return (name, (n.attribute? "value").getD "")

def addSection (s : Script) (n : Markup.Node) : Except ReadError Script :=
  match n.name with
  | "meta" =>
      match n.elements.find? fun e => e.name = "name" with
      | some e => .ok { s with name := Text.trim e.leadingText }
      | none => .ok s
  | "vars" => do
      let vs ← n.elements.mapM variable_
      return { s with vars := vs.foldl (fun m v => m.put v.1 v.2) s.vars }
  | "rules" => do
      let rs ← n.elements.mapM rule
      return { s with rules := s.rules ++ rs }
  | "maps" => do
      let ts ← n.elements.mapM table
      return { s with maps := ts.foldl (fun m t => m.put t.name t) s.maps }
  | "filters" => do
      let fs ← n.elements.mapM namedFilter
      return { s with filters := fs.foldl (fun m f => m.put f.1 f.2) s.filters }
  | other => .error (.unexpectedElement "metamorph" other)

end Script

namespace Script

def empty : Script := ⟨"", .empty, [], .empty, .empty⟩

def ofNode (root : Markup.Node) : Except ReadError Script :=
  if root.name = "metamorph" then root.elements.foldlM addSection empty
  else .error (.root root.name)

def ofText (s : String) : Except ReadError Script :=
  match Markup.Node.ofText? s with
  | some root => ofNode root
  | none => .error .document

end Script
end Recast
