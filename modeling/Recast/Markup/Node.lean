import Recast.Markup.Token

/-!
# Node — documents as trees

`Node.ofText?` is the root element of a document, if its tags match, its qualified names belong to
namespaces, and nothing but blanks, comments and instructions stands around the root.

An element is known by its local name.  Its *label* is the local name with, in front of it, the
first qualifier in scope that stands for the namespace of the element.
-/

namespace Recast
namespace Markup

/-- An attribute; `space` is the namespace of a qualified name. -/
structure Attribute where
  space : Option String
  name : String
  value : String
  deriving DecidableEq, Repr

inductive Node where
  | element (name label : String) (attributes : List Attribute) (children : List Node)
  | text (s : String)
  /-- A comment or a processing instruction. -/
  | mark
  deriving Inhabited

/-! ## Namespaces -/

/-- Namespaces by the qualifiers that stand for them; one of them may be the default. -/
abbrev Scope := List (Option String × String)

namespace Scope

def xmlSpace : String := "http://www.w3.org/XML/1998/namespace"

/-- The namespace of the declarations themselves. -/
def declarationSpace : String := "http://www.w3.org/2000/xmlns/"

def binds (s : Scope) (qualifier : Option String) : Bool :=
  s.any fun b => b.1 = qualifier

/-- Add what an attribute declares to the declarations of its tag.  The two namespaces of XML itself
cannot be given other qualifiers. -/
def declare? (s : Scope) (name : WrittenName) (value : String) : Option Scope :=
  if name.qualifier = "xmlns" then
    -- `xml` and its namespace belong together, and no qualifier is declared twice
    if value = declarationSpace || (name.base = "xml") != (value = xmlSpace) ||
        s.binds (some name.base) then none
    else some (if value = xmlSpace then s else s ++ [(some name.base, value)])
  else if value = xmlSpace || value = declarationSpace then none
  else some (s ++ [(none, value)])

def isDeclaration (name : WrittenName) : Bool :=
  name.qualifier = "xmlns" || name.base = "xmlns"

/-- What the attributes of a tag declare. -/
def declared? (as : List (WrittenName × String)) : Option Scope :=
  (as.filter fun a => isDeclaration a.1).foldlM (fun s a => s.declare? a.1 a.2) []

/-- The namespaces inside an element: its own ones, then those around it that it keeps. -/
def within (own outer : Scope) : Scope :=
  if own.isEmpty then outer
  else outer.foldl (fun s b => if s.binds b.1 then s else s ++ [b]) own

/-- The namespace of a name without qualifier, if there is one. -/
def default? (s : Scope) : Option String :=
  s.lookup none

/-- The first qualifier that stands for a namespace. -/
def qualifier? (s : Scope) (space : String) : Option String :=
  (s.find? fun b => b.2 = space).bind Prod.fst

/-- The namespace of an element; a qualifier must be declared. -/
def ofElement? (s : Scope) (name : WrittenName) : Option (Option String) :=
  if name.qualifier = "" then some s.default? else (s.lookup (some name.qualifier)).map some

/-- The namespace of an attribute; without qualifier it has none. -/
def ofAttribute? (s : Scope) (name : WrittenName) : Option (Option String) :=
  if name.qualifier = "xml" then some (some xmlSpace)
  else if name.qualifier = "" then some none
  else (s.lookup (some name.qualifier)).map some

end Scope

/-- The attributes of a tag, declarations aside; no two of them have the same name. -/
def attributesIn? (s : Scope) (as : List (WrittenName × String)) : Option (List Attribute) :=
  (as.filter fun a => !Scope.isDeclaration a.1).foldlM (fun done a => do
    let space ← s.ofAttribute? a.1
    -- two qualifiers of one namespace make the same name
    if done.any fun b => b.space = space && b.name = a.1.base then none
    return done ++ [⟨space, a.1.base, a.2⟩]) []

def labelIn (s : Scope) (space : Option String) (name : String) : String :=
  match space.bind s.qualifier? with
  | some q => q ++ ":" ++ name
  | none => name

/-! ## From tokens to trees -/

/-- An element whose end has not been read; its children are gathered in reverse. -/
structure Frame where
  written : WrittenName
  label : String
  attributes : List Attribute
  scope : Scope
  children : List Node

namespace Frame

def open? (outer : Scope) (name : WrittenName) (as : List (WrittenName × String)) : Option Frame := do
  if name.qualifier = "xmlns" then none
  let own ← Scope.declared? as
  let scope := Scope.within own outer
  let kept ← attributesIn? scope as
  let space ← scope.ofElement? name
  return ⟨name, labelIn scope space name.base, kept, scope, []⟩

def node (f : Frame) : Node :=
  .element f.written.base f.label f.attributes f.children.reverse

def add (f : Frame) (n : Node) : Frame :=
  { f with children := n :: f.children }

/-- Add a text, which becomes one with a text right before it. -/
def addText (f : Frame) (s : String) : Frame :=
  match f.children with
  | .text t :: earlier => { f with children := .text (t ++ s) :: earlier }
  | _ => f.add (.text s)

end Frame

/-- How far a document has been read. -/
inductive Progress where
  | before
  | inside (top : Frame) (below : List Frame)
  | after (root : Node)

namespace Progress

def add (n : Node) : List Frame → Progress
  | [] => .after n
  | f :: below => .inside (f.add n) below

/-- Whether a text consists of blanks that are written as they are. -/
def isBlankText (ps : List Piece) : Bool :=
  ps.all fun
    | .written c => isBlank c
    | .referred _ => false

def step? : Progress → Token → Option Progress
  | .before, .start name as closed => do
      let f ← Frame.open? [] name as
      return if closed then .after f.node else .inside f []
  | .inside top below, .start name as closed => do
      let f ← Frame.open? top.scope name as
      return if closed then .inside (top.add f.node) below else .inside f (top :: below)
  | .inside top below, .stop name => if name = top.written then some (add top.node below) else none
  | .inside top below, .text ps => some (.inside (top.addText (textOf ps)) below)
  | .inside top below, .verbatim cs =>
      some (.inside (top.addText (textOf (cs.map .written))) below)
  | .inside top below, .mark => some (.inside (top.add .mark) below)
  | p, .mark => some p
  -- outside the root blanks must be written as they are
  | p, .text ps => if isBlankText ps then some p else none
  | _, _ => none

/-- The root element, if the document is complete. -/
def finish? : Progress → Option Node
  | .after root => some root
  | _ => none

end Progress

namespace Node

def ofTokens? (ts : List Token) : Option Node :=
  (ts.foldlM Progress.step? .before).bind Progress.finish?

def ofText? (s : String) : Option Node :=
  (tokens? s.toList).bind ofTokens?

/-! ## Access -/

def name : Node → String
  | .element n .. => n
  | _ => ""

def label : Node → String
  | .element _ l .. => l
  | _ => ""

def isElement : Node → Bool
  | .element .. => true
  | _ => false

def children : Node → List Node
  | .element _ _ _ ns => ns
  | _ => []

def elements (n : Node) : List Node :=
  n.children.filter isElement

def attributes : Node → List Attribute
  | .element _ _ as _ => as
  | _ => []

/-- The value of an attribute without namespace. -/
def attribute? (n : Node) (name : String) : Option String :=
  (n.attributes.find? fun a => a.space = none && a.name = name).map Attribute.value

/-- The text with which the content of an element starts. -/
def leadingText (n : Node) : String :=
  match n.children with
  | .text s :: _ => s
  | _ => ""

mutual
def allText : Node → String
  | .element _ _ _ ns => allTexts ns
  | .text s => s
  | .mark => ""

def allTexts : List Node → String
  | [] => ""
  | n :: rest => allText n ++ allTexts rest
end

mutual
/-- The elements with a label, outer ones before those inside them. -/
def labelled (l : String) : Node → List Node
  | .element n k as ns =>
      if k = l then .element n k as ns :: labelledIn l ns else labelledIn l ns
  | _ => []

def labelledIn (l : String) : List Node → List Node
  | [] => []
  | n :: rest => labelled l n ++ labelledIn l rest
end

end Node
end Markup
end Recast
