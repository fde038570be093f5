import Recast.Decoder.Json
import Recast.Proofs.Stream.Content

/-!
# Leaves — what is heard of Json records

The *leaves* of a value are its scalars other than null, in document order.  The way to a leaf is
the list of the keys that lead to it; items of arrays have no keys of their own.

Main statement: `JsonOptions.decode_leaves`.  The literals of a record are the leaves of its object:
the entities that are open when a literal comes, and then its name, are the way to the leaf.  There
are as many entities as there are objects inside the record.
-/

namespace Recast
namespace Json

/-! ## Leaves and objects of a value -/

mutual
/-- The leaves of a value: the way to each of them, and its text. -/
def leaves : Json → List (List String × String)
  | .null => []
  | .bool true => [([], "true")]
  | .bool false => [([], "false")]
  | .number n => [([], String.ofList n.chars)]
  | .string s => [([], s)]
  | .array items => itemsLeaves items
  | .object members => membersLeaves members

def itemsLeaves : List Json → List (List String × String)
  | [] => []
  | v :: rest => leaves v ++ itemsLeaves rest

def membersLeaves : List (String × Json) → List (List String × String)
  | [] => []
  | m :: rest => memberLeaves m ++ membersLeaves rest

/-- The leaves of a member; its key comes first on the way to each of them. -/
def memberLeaves : String × Json → List (List String × String)
  | (key, v) => (leaves v).map fun l => (key :: l.1, l.2)
end

mutual
/-- The number of objects in a value, itself included. -/
def objects : Json → Nat
  | .array items => itemsObjects items
  | .object members => membersObjects members + 1
  | _ => 0

def itemsObjects : List Json → Nat
  | [] => 0
  | v :: rest => objects v + itemsObjects rest

def membersObjects : List (String × Json) → Nat
  | [] => 0
  | m :: rest => memberObjects m + membersObjects rest

def memberObjects : String × Json → Nat
  | (_, v) => objects v
end

/-! ## Events of a value -/

/-- The way to a literal: the entities that are open when it comes, and its name. -/
def way (l : List String × String × String) : List String × String :=
  (l.1 ++ [l.2.1], l.2.2)

/-- Events inside a record say some leaves inside some entities, start so many entities, and leave
the same ones open. -/
structure Says (es : List Event) (around : List String) (ls : List (List String × String))
    (entities : Nat) : Prop where
  heard : ∀ more, (Event.heard around (es ++ more)).map way =
    (ls.map fun l => (around ++ l.1, l.2)) ++ (Event.heard around more).map way
  entities : es.countP (fun e => e.kind = .startEntity) = entities
  inside : ∀ e ∈ es, e.kind ≠ .startRecord ∧ e.kind ≠ .endRecord

theorem Says.nil (around : List String) : Says [] around [] 0 where
  heard := fun _ => rfl
  entities := rfl
  inside := by simp

theorem Says.literal (key text : String) (around : List String) :
    Says [.literal key text] around [([key], text)] 0 where
  heard := fun _ => rfl
  entities := rfl
  inside := by simp [Event.kind]

theorem Says.append {es fs : List Event} {around : List String} {m n : Nat}
    {ls ks : List (List String × String)} (h : Says es around ls m) (h' : Says fs around ks n) :
    Says (es ++ fs) around (ls ++ ks) (m + n) where
  heard := by
    intro more
    calc (Event.heard around (es ++ fs ++ more)).map way
        = (Event.heard around (es ++ (fs ++ more))).map way := by rw [List.append_assoc]
      _ = (ls.map fun l => (around ++ l.1, l.2)) ++ ((ks.map fun l => (around ++ l.1, l.2)) ++
            (Event.heard around more).map way) := by rw [h.heard, h'.heard]
      _ = ((ls ++ ks).map fun l => (around ++ l.1, l.2)) ++ (Event.heard around more).map way := by
          rw [List.map_append, List.append_assoc]
  entities := by rw [List.countP_append, h.entities, h'.entities]
  inside := by
    intro e he
    exact (List.mem_append.1 he).elim (h.inside e) (h'.inside e)

/-- An entity says what its events say, with its name in front of each way. -/
theorem Says.entity {es : List Event} {key : String} {around : List String} {n : Nat}
    {ls : List (List String × String)} (h : Says es (around ++ [key]) ls n) :
    Says (.startEntity key :: es ++ [.endEntity]) around (ls.map fun l => (key :: l.1, l.2))
      (n + 1) where
  heard := by
    intro more
    -- the end of the entity takes its key off again
    have hends : Event.heard (around ++ [key]) (.endEntity :: more) = Event.heard around more := by
      simp [Event.heard, Event.nest]
    calc (Event.heard around (.startEntity key :: es ++ [.endEntity] ++ more)).map way
        = (Event.heard (around ++ [key]) (es ++ .endEntity :: more)).map way := by
          simp [Event.heard, Event.nest]
      _ = (ls.map fun l => (around ++ [key] ++ l.1, l.2)) ++ (Event.heard around more).map way := by
          rw [h.heard, hends]
      _ = _ := by simp [Function.comp_def]
  entities := by
    have hcount := h.entities
    simp_all [Event.kind]
  inside := by
    intro e he
    rcases List.mem_append.1 he with he | he
    · rcases List.mem_cons.1 he with rfl | he
      · simp [Event.kind]
      · exact h.inside e he
    · cases List.mem_singleton.1 he
      simp [Event.kind]

-- the cases are those of the events: values, the items of arrays, and members
mutual
/-- The events of a value say its leaves. -/
theorem says_value (key : String) (v : Json) (around : List String) :
    Says (valueEvents key v) around (memberLeaves (key, v)) (objects v) := by
  cases v with
  | null => exact .nil around
  | bool b => cases b <;> exact .literal key _ around
  | number n => exact .literal key _ around
  | string s => exact .literal key s around
  | array items => exact says_items key items around
  | object members => exact (says_members members (around ++ [key])).entity

/-- The events of items say the leaves of each, under their key. -/
theorem says_items (key : String) (items : List Json) (around : List String) :
    Says (itemsEvents key items) around
      ((itemsLeaves items).map fun l => (key :: l.1, l.2)) (itemsObjects items) := by
  cases items with
  | nil => exact .nil around
  | cons v rest =>
      rw [itemsEvents, itemsLeaves, List.map_append]
      exact (says_value key v around).append (says_items key rest around)

/-- The events of members say the leaves of each. -/
theorem says_members (members : List (String × Json)) (around : List String) :
    Says (membersEvents members) around (membersLeaves members) (membersObjects members) := by
  cases members with
  | nil => exact .nil around
  | cons m rest =>
      rw [membersEvents, membersLeaves]
      exact (says_member m around).append (says_members rest around)

theorem says_member (m : String × Json) (around : List String) :
    Says (memberEvents m) around (memberLeaves m) (memberObjects m) := by
  obtain ⟨key, v⟩ := m
  exact says_value key v around
end

end Json

/-! ## Documents -/

namespace JsonOptions

/-- The objects in front of the first item that is none. -/
def leadingObjects : List Json → List (List (String × Json))
  | .object members :: rest => members :: leadingObjects rest
  | _ => []

/-- The objects of a document that are records, up to the first record that is no object. -/
def recordObjects (o : JsonOptions) (input : String) : List (List (String × Json)) :=
  match (Json.parse? input).bind fun document => (root o document).toOption with
  | some (.array items) => leadingObjects items
  | some (.object members) => [members]
  | _ => []

/-- The events of records up to the first item that is no object. -/
theorem events_ofRecordsFrom (o : JsonOptions) (items : List Json) (count : Nat) :
    (Decoded.ofRecordsFrom o.record count items).events =
      ((leadingObjects items).zipIdx (count + 1)).flatMap fun p =>
        .startRecord (o.recordId p.2 (.object p.1)) :: Json.membersEvents p.1 ++ [.endRecord] := by
  induction items generalizing count with
  | nil => rfl
  | cons v rest ih =>
      cases v with
      | object members =>
          rw [Decoded.ofRecordsFrom, leadingObjects, List.zipIdx_cons, List.flatMap_cons, ← ih]
          rfl
      | _ => rfl

/-- The events of a document are those of its records, up to the first item that is no object. -/
theorem events_decode (o : JsonOptions) (input : String) :
    (o.decode input).events = ((o.recordObjects input).zipIdx 1).flatMap fun p =>
      .startRecord (o.recordId p.2 (.object p.1)) :: Json.membersEvents p.1 ++ [.endRecord] := by
  unfold decode recordObjects
  cases Json.parse? input with
  | none => rfl
  | some document =>
      simp only [Option.bind_some]
      cases root o document with
      | error e => rfl
      | ok part =>
          cases part with
          | array items => exact events_ofRecordsFrom o items 0
          | object members => exact events_ofRecordsFrom o [.object members] 0
          | _ => rfl

/-- The decoder hands on the objects of a document as records, one after the other.  Between the
start and the end of a record the literals are the leaves of its object in document order, each
inside the entities named by the keys on the way to it, and every object inside the record is an
entity. -/
theorem decode_leaves (o : JsonOptions) (input : String) :
    ((o.decode input).events = ((o.recordObjects input).zipIdx 1).flatMap fun p =>
      .startRecord (o.recordId p.2 (.object p.1)) :: Json.membersEvents p.1 ++ [.endRecord]) ∧
    ∀ members : List (String × Json),
      (Event.heard [] (Json.membersEvents members)).map Json.way = Json.leaves (.object members) ∧
        (Json.membersEvents members).countP (fun e => e.kind = .startEntity) =
          Json.membersObjects members ∧
        ∀ e ∈ Json.membersEvents members, e.kind ≠ .startRecord ∧ e.kind ≠ .endRecord := by
  refine ⟨events_decode o input, fun members => ?_⟩
  have hsays := Json.says_members members []
  refine ⟨?_, hsays.entities, hsays.inside⟩
  simpa [Event.heard, Json.leaves] using hsays.heard []

end JsonOptions
end Recast
