/-!
# Statement — facts about a subject

A statement says that a subject has, under a predicate, a literal or another resource as object.
Subject, predicate and resource are never empty: `Statement.make?` checks them in this order.
-/

namespace Recast

/-- The object of a statement. -/
inductive Node where
  | resource (uri : String)
  | literal (value : String)
  deriving DecidableEq, Repr

namespace Node

def value : Node → String
  | .resource uri => uri
  | .literal v => v

def resource? : Node → Option String
  | .resource uri => some uri
  | .literal _ => none

def literal? : Node → Option String
  | .resource _ => none
  | .literal v => some v

end Node

/-- A fact: subject, predicate and object. -/
structure Statement where
  subject : String
  predicate : String
  object : Node
  subject_ne : subject ≠ ""
  predicate_ne : predicate ≠ ""
  object_ne : object ≠ .resource ""
  deriving DecidableEq

namespace Statement

/-- The part of a statement that must not be empty. -/
inductive Part where
  | subject
  | predicate
  | object
  deriving DecidableEq, Repr

def Part.name : Part → String
  | .subject => "subject"
  | .predicate => "predicate"
  | .object => "object"

def Part.message (p : Part) : String :=
  s!"statement {p.name} must not be empty"

/-- Make a statement, or name its first empty part. -/
def make? (subject predicate : String) (object : Node) : Except Part Statement :=
  if hs : subject = "" then .error .subject
  else if hp : predicate = "" then .error .predicate
  else if ho : object = .resource "" then .error .object
  else .ok ⟨subject, predicate, object, hs, hp, ho⟩

theorem make?_self (s : Statement) : make? s.subject s.predicate s.object = .ok s := by
  simp [make?, s.subject_ne, s.predicate_ne, s.object_ne]

end Statement
end Recast
