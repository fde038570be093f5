import Recast.Pattern.Matcher
import Recast.Script.Basic
import Recast.Text.Parts

/-!
# Source — what data rules listen to

The source of a data rule is a path: entity names and the name of a literal, joined by dots.  A star
in it stands for any characters of one line.

* `Source.expression?` — the regular expression of a source with stars;
* `Source.accepts` — whether a rule listens to a path, said without regular expressions.
-/

namespace Recast
namespace Source

def isStarred (source : String) : Bool :=
  '*' ∈ source.toList

/-! ## Regular expressions -/

/-- The text of the regular expression of a source: the source escaped, and each of its stars, which
has a backslash now, made an expression for any characters of one line. -/
def patternText (source : String) : String :=
  String.ofList
    ('^' :: Text.replace ['\\', '*'] ['.', '*'] 0 (Pattern.escape source.toList) ++ ['$'])

def expression? (source : String) : Option Pattern.Expression :=
  Pattern.parse? (patternText source)

/-- Whether a rule with a source can be looked up: there is nothing to read in a plain source, and
the regular expression of a starred one is not too large. -/
def isReadable (source : String) : Bool :=
  !isStarred source || (expression? source).any Pattern.Expression.isModest

/-! ## Stars -/

/-- Whether what remains behind some characters of a line fits. -/
def fitsSome (fits : List Char → Bool) : List Char → Bool
  | [] => fits []
  | c :: cs => fits (c :: cs) || (c != '\n' && fitsSome fits cs)

/-- Whether a text fits a pattern in which a star stands for any characters but line feeds. -/
def fits : List Char → List Char → Bool
  | [], cs => cs.isEmpty
  | '*' :: pattern, cs => fitsSome (fits pattern) cs
  | p :: pattern, c :: cs => p = c && fits pattern cs
  | _ :: _, [] => false

/-- Whether a rule with a source listens to a path. -/
def accepts (source path : String) : Bool :=
  if '*' ∈ source.toList then fits source.toList path.toList else source == path

/-- The path of a literal inside entities, outer ones first. -/
def path (entities : List String) (name : String) : String :=
  Text.glue "." (entities ++ [name])

end Source
end Recast
