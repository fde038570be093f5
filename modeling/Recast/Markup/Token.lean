import Recast.Markup.Content
import Recast.Text.Parts

/-!
# Token — tags and texts of a document

`Markup.tokens?` cuts a document into start tags, end tags and texts.  Comments and processing
instructions leave a mark of their own, since they divide the text around them.  There are no
document type definitions.
-/

namespace Recast
namespace Markup

/-- A name as written: what stands before the colon, if there is one, and what stands behind it. -/
structure WrittenName where
  qualifier : String
  base : String
  deriving DecidableEq, Repr

inductive Token where
  /-- A start tag with its attributes; `closed` if the element ends with it. -/
  | start (name : WrittenName) (attributes : List (WrittenName × String)) (closed : Bool)
  | stop (name : WrittenName)
  | text (ps : List Piece)
  /-- A text without references. -/
  | verbatim (cs : List Char)
  /-- A comment or a processing instruction. -/
  | mark
  deriving DecidableEq, Repr

/-! ## Names and attributes -/

/-- Whether a text can be one half of a name. -/
def isHalfName : List Char → Bool
  | [] => false
  | c :: _ => isNameStart c

/-- Read a name with at most one colon. -/
def writtenName? (cs : List Char) : Option (WrittenName × List Char) :=
  match Text.split ':' (cs.takeWhile isNamePart) with
  | [base] =>
      if isHalfName base then some (⟨"", String.ofList base⟩, cs.dropWhile isNamePart) else none
  | [qualifier, base] =>
      if (qualifier.isEmpty || isHalfName qualifier) && isHalfName base then
        some (⟨String.ofList qualifier, String.ofList base⟩, cs.dropWhile isNamePart)
      else none
  | _ => none

def quotedValue? (quote : Char) (cs : List Char) : Option (String × List Char) := do
  let inner := cs.takeWhile fun c => c != quote && c != '<'
  if !inner.all isChar then none
  match cs.dropWhile fun c => c != quote && c != '<' with
  | c :: rest =>
      if c = quote then
        let ps ← pieces? inner
        return (String.ofList (valueOf ps), rest)
      else none
  | [] => none

def attribute? (cs : List Char) : Option ((WrittenName × String) × List Char) := do
  let (name, rest) ← writtenName? cs
  match skipBlank rest with
  | '=' :: more =>
      match skipBlank more with
      | '"' :: inner => do
          let (value, tail) ← quotedValue? '"' inner
          return ((name, value), tail)
      | '\'' :: inner => do
          let (value, tail) ← quotedValue? '\'' inner
          return ((name, value), tail)
      | _ => none
  | _ => none

/-- Read the attributes of a start tag up to its end. -/
def attributes? (cs : List Char) : Option (List (WrittenName × String) × Bool × List Char) :=
  match skipBlank cs with
  | '/' :: '>' :: rest => some ([], true, rest)
  | '>' :: rest => some ([], false, rest)
  | next => do
      -- an attribute must be divided from what stands in front of it
      if (cs.head?.map isBlank) != some true then none
      let (a, rest) ← attribute? next
      if _h : rest.length < cs.length then
        let (more, closed, tail) ← attributes? rest
        return (a :: more, closed, tail)
      else none
termination_by cs.length

/-! ## Tokens -/

def comment? (cs : List Char) : Option (Token × List Char) := do
  let (inner, rest) ← Text.cut? ['-', '-', '>'] cs
  -- two dashes in a row only end a comment
  if !inner.all isChar || (Text.cut? ['-', '-'] inner).isSome || inner.getLast? = some '-' then none
  return (.mark, rest)

def instruction? (cs : List Char) : Option (Token × List Char) := do
  -- the declaration stands in front of the document or nowhere
  if ['x', 'm', 'l', ' '].isPrefixOf cs || !isHalfName cs then none
  let (inner, rest) ← Text.cut? ['?', '>'] (skipBlank (cs.dropWhile isNamePart))
  if inner.all isChar then return (.mark, rest) else none

/-- Read a text without references behind its opening. -/
def verbatim? (cs : List Char) : Option (Token × List Char) := do
  let (inner, rest) ← Text.cut? [']', ']', '>'] cs
  if inner.all isChar then return (.verbatim inner, rest) else none

def stop? (cs : List Char) : Option (Token × List Char) := do
  let (name, rest) ← writtenName? cs
  match skipBlank rest with
  | '>' :: tail => return (.stop name, tail)
  | _ => none

def start? (cs : List Char) : Option (Token × List Char) := do
  let (name, rest) ← writtenName? cs
  let (attributes_, closed, tail) ← attributes? rest
  return (.start name attributes_ closed, tail)

/-- Read a text up to the next tag. -/
def text? (cs : List Char) : Option (Token × List Char) := do
  let inner := cs.takeWhile (· != '<')
  -- the end of a verbatim text must not stand in another one
  if !inner.all isChar || (Text.cut? [']', ']', '>'] inner).isSome then none
  let ps ← pieces? inner
  return (.text ps, cs.dropWhile (· != '<'))

def next? : List Char → Option (Token × List Char)
  | '<' :: '!' :: '-' :: '-' :: rest => comment? rest
  | '<' :: '!' :: '[' :: 'C' :: 'D' :: 'A' :: 'T' :: 'A' :: '[' :: rest => verbatim? rest
  | '<' :: '!' :: _ => none
  | '<' :: '?' :: rest => instruction? rest
  | '<' :: '/' :: rest => stop? rest
  | '<' :: rest => start? rest
  | cs => text? cs

def scan? (cs : List Char) : Option (List Token) :=
  match cs with
  | [] => some []
  | c :: more => do
      let (t, rest) ← next? (c :: more)
      if _h : rest.length ≤ more.length then
        let ts ← scan? rest
        return t :: ts
      else none
termination_by cs.length

/-! ## The declaration in front -/

/-- Pass over an attribute of the declaration if it has the given name. -/
def passAttribute? (name cs : List Char) : Option (List Char) :=
  if name.isPrefixOf cs then (attribute? cs).map Prod.snd else some cs

/-- Blanks must follow, unless the declaration ends. -/
def passBlank? (cs : List Char) : Option (List Char) :=
  if (cs.head?.map isBlank) = some true || ['?', '>'].isPrefixOf cs then some (skipBlank cs) else none

/-- Pass over the declaration with which a document may start. -/
def passDeclaration? : List Char → Option (List Char)
  | '<' :: '?' :: 'x' :: 'm' :: 'l' :: ' ' :: cs => do
      let rest := skipBlank cs
      if !("version".toList.isPrefixOf rest) then none
      let rest ← (passAttribute? "version".toList rest).bind passBlank?
      let rest ←
        if "encoding".toList.isPrefixOf rest then
          (passAttribute? "encoding".toList rest).bind passBlank?
        else some rest
      let rest ← passAttribute? "standalone".toList rest
      match skipBlank rest with
      | '?' :: '>' :: tail => return tail
      | _ => none
  | cs => some cs

/-- Pass over the mark with which the bytes of a document may start. -/
def passByteOrderMark : List Char → List Char
  | '\uFEFF' :: cs => cs
  | cs => cs

def tokens? (cs : List Char) : Option (List Token) :=
  (passDeclaration? (passByteOrderMark cs)).bind scan?

end Markup
end Recast
