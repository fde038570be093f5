import Recast.Text.Blank

/-!
# Name — identifiers of records, predicates and classes

A name is *absolute* if it is hierarchical (`scheme://...`) or a URN; other names, such as
`dc:title`, are local and are minted into an absolute name by appending them to a base.
-/

namespace Recast
namespace Name

/-- The predicate that states the class of a subject. -/
def typePredicate : String := "http://www.w3.org/1999/02/22-rdf-syntax-ns#type"

/-- The record class of a run that met no other. -/
def defaultRecordClass : String := "http://purl.org/ontology/bibo/Document"

/-- The characters that may follow the first letter of a scheme. -/
def isSchemeChar (c : Char) : Bool :=
  c.isAlphanum || c = '+' || c = '.' || c = '-'

/-- One or more characters, none of them blank. -/
def isSolid (cs : List Char) : Bool :=
  !cs.isEmpty && cs.all fun c => !Text.isBlank c

/-- A letter, further scheme characters, `://` and a solid rest. -/
def isHierarchical : List Char → Bool
  | [] => false
  | c :: rest =>
      c.isAlpha && match rest.dropWhile isSchemeChar with
        | ':' :: '/' :: '/' :: tail => isSolid tail
        | _ => false

/-- `urn:` and a solid rest. -/
def isUrn : List Char → Bool
  | 'u' :: 'r' :: 'n' :: ':' :: tail => isSolid tail
  | _ => false

def isAbsolute (name : String) : Bool :=
  isHierarchical name.toList || isUrn name.toList

/-- A local name appended to a base; an absolute name is kept. -/
def mint (base name : String) : String :=
  if isAbsolute name then name else base ++ name

/-- The names that state a class: the full predicate and its usual short form. -/
def isType (name : String) : Bool :=
  name == typePredicate || name == "rdf:type"

end Name
end Recast
