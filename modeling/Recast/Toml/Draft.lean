import Recast.Assoc
import Recast.Toml.Value

/-!
# Draft — tables while they are read

A configuration text fills its tables step by step: headers open tables, and dotted keys lead into
further ones.  A draft remembers how each table has come to be, for that decides what may still be
added to it:

* a table is opened by one header at most, but headers may have led through it before;
* a dotted key leads only through tables that no header has opened;
* a value, an array or an inline table is closed.
-/

namespace Recast
namespace Toml

/-- How a table has come to be. -/
inductive Origin where
  /-- A header has opened it. -/
  | header
  /-- A header has led through it. -/
  | implied
  /-- A dotted key has led through it. -/
  | dotted
  deriving DecidableEq, Repr

/-- What stands under a key so far. -/
inductive Draft where
  | value (v : Toml)
  | table (origin : Origin) (entries : List (String × Draft))
  /-- Tables of one name, each opened by a header of its own. -/
  | tables (items : List (List (String × Draft)))

namespace Draft

/-- The entries of a table so far. -/
abbrev Entries := List (String × Draft)

/-- A value under a key that may be dotted: the path to its table, and its name in there. -/
structure Assignment where
  path : List String
  key : String
  value : Toml

structure Header where
  path : List String
  key : String
  /-- Whether the header opens one more of several tables. -/
  repeated : Bool
  deriving DecidableEq, Repr

/-- Change the table that a path leads to, and make the tables on the way that are missing. -/
def descend (dotted : Bool) (change : Origin → Entries → Option Entries) :
    List String → Origin → Entries → Option Entries
  | [], origin, es => change origin es
  | k :: path, _, es =>
      match Assoc.get? k es with
      | none =>
          let origin := if dotted then Origin.dotted else .implied
          (descend dotted change path origin []).map fun inner => es ++ [(k, .table origin inner)]
      | some (.table origin inner) =>
          -- a header has opened the table, and its lines alone fill it
          if dotted && origin = .header then none
          else (descend dotted change path origin inner).map fun inner =>
            Assoc.put k (.table origin inner) es
      | some (.tables items) =>
          -- a path leads into the table that was opened last
          match items.getLast? with
          | some last => (descend dotted change path .header last).map fun last =>
              Assoc.put k (.tables (items.dropLast ++ [last])) es
          | none => none
      | some (.value _) => none

def assign (es : Entries) (a : Assignment) : Option Entries :=
  let dotted := !a.path.isEmpty
  descend dotted (fun origin es =>
    if (origin = .dotted) = dotted ∧ (Assoc.get? a.key es).isNone then
      some (es ++ [(a.key, .value a.value)])
    else none) a.path .header es

def assignAll (es : Entries) (as : List Assignment) : Option Entries :=
  as.foldlM assign es

/-- Open a table and fill it. -/
def fill (es : Entries) (h : Header) (body : List Assignment) : Option Entries :=
  descend false (fun _ es =>
    match h.repeated, Assoc.get? h.key es with
    | false, none => (assignAll [] body).map fun b => es ++ [(h.key, .table .header b)]
    | false, some (.table .implied inner) =>
        (assignAll inner body).map fun b => Assoc.put h.key (.table .header b) es
    | true, none => (assignAll [] body).map fun b => es ++ [(h.key, .tables [b])]
    | true, some (.tables items) =>
        (assignAll [] body).map fun b => Assoc.put h.key (.tables (items ++ [b])) es
    | _, _ => none) h.path .header es

/-! ## From drafts to values -/

def sorted (es : List (String × Toml)) : List (String × Toml) :=
  es.mergeSort fun a b => a.1 ≤ b.1

mutual
def finish : Draft → Toml
  | .value v => v
  | .table _ es => .table (sorted (finishEntries es))
  | .tables items => .array (finishItems items)

def finishEntries : List (String × Draft) → List (String × Toml)
  | [] => []
  | e :: rest => finishEntry e :: finishEntries rest

def finishEntry : String × Draft → String × Toml
  | (k, d) => (k, finish d)

/-- The tables of one name. -/
def finishItems : List (List (String × Draft)) → List Toml
  | [] => []
  | es :: rest => .table (sorted (finishEntries es)) :: finishItems rest
end

end Draft
end Toml
end Recast
