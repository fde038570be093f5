import Recast.Graph.Encoder

/-!
# Key — the nodes made for entities and where they stand

The URI of a node consists of the URI of its record, the key of the entity and a number.  Whatever
the key is, the URI tells the key and the number: `nodeUri_inj`.  The key in turn tells the names of
the entities that lead to the node, and with them its path, if no name is empty or has a slash in it:
`pathOf_childKey`.
-/

namespace Recast

namespace Encoder

/-! ## URIs of nodes -/

def nodeUri (record key : String) (n : Nat) : String :=
  record ++ "/" ++ key ++ "/" ++ n.repr

def Record.count (r : Record) (key : String) : Nat :=
  (Assoc.get? key r.counts).getD 0

theorem toList_nodeUri (record key : String) (n : Nat) :
    (nodeUri record key n).toList =
      record.toList ++ ('/' :: (key.toList ++ '/' :: Nat.toDigits 10 n)) := by
  simp [nodeUri, String.toList_append, Nat.toList_repr]

/-- The number of a node has no slash in it. -/
theorem slash_not_mem_toDigits (n : Nat) : '/' ∉ Nat.toDigits 10 n := by
  intro hmem
  have hdigit := Nat.isDigit_of_mem_toDigits (by omega) (by omega) hmem
  exact absurd hdigit (by decide)

/-- The last slash of the URI of a node divides the key from the number. -/
theorem nodeUri_inj {record key key' : String} {n n' : Nat}
    (h : nodeUri record key n = nodeUri record key' n') : key = key' ∧ n = n' := by
  have hlist := congrArg String.toList h
  rw [toList_nodeUri, toList_nodeUri] at hlist
  have htail := (List.cons.inj (List.append_cancel_left hlist)).2
  -- read from the end, the number comes first and has no slash in it
  have hreverse := congrArg List.reverse htail
  simp only [List.reverse_append, List.reverse_cons, List.append_assoc, List.singleton_append]
    at hreverse
  obtain ⟨hdigits, hkeys⟩ := Text.append_cons_inj
    (by simpa using slash_not_mem_toDigits n) (by simpa using slash_not_mem_toDigits n') hreverse
  have hvalue := congrArg (fun ds => Nat.ofDigitChars 10 ds 0) (List.reverse_inj.1 hdigits)
  exact ⟨String.toList_inj.1 (List.reverse_inj.1 hkeys), by simpa using hvalue⟩

/-- No node has the URI of its record. -/
theorem nodeUri_ne (record key : String) (n : Nat) : nodeUri record key n ≠ record := by
  intro h
  have hlength := congrArg (fun s => s.toList.length) h
  simp only [toList_nodeUri, List.length_append, List.length_cons] at hlength
  omega

/-! ## Paths of keys -/

/-- The name of an entity that a key can be divided by. -/
def PlainName (name : String) : Prop :=
  name ≠ "" ∧ '/' ∉ name.toList

instance (name : String) : Decidable (PlainName name) :=
  inferInstanceAs (Decidable (_ ∧ _))

def namesOf (key : String) : List String :=
  if key = "" then [] else Text.parts '/' key

/-- The predicates that lead to an entity with a key. -/
def pathOf (d : DataModel) (key : String) : AttributePath :=
  ⟨(namesOf key).map (predicate d)⟩

/-- The names of a key are read back if they are plain. -/
theorem namesOf_childKey (parent : String) {name : String} (h : PlainName name) :
    namesOf (childKey parent name) = namesOf parent ++ [name] := by
  have hname : Text.parts '/' name = [name] := by
    simp [Text.parts, Text.split_of_not_mem h.2]
  unfold childKey
  -- at the root the key is the name alone; elsewhere it is split again at the slash that joins it
  by_cases hparent : parent = ""
  · simp [namesOf, hparent, h.1, hname]
  · have hne : parent ++ "/" ++ name ≠ "" := by
      intro he
      have hlist := congrArg String.toList he
      simp [String.toList_append] at hlist
    have hlist : (parent ++ "/" ++ name).toList = parent.toList ++ '/' :: name.toList := by
      simp [String.toList_append]
    rw [if_neg hparent, namesOf, if_neg hne, namesOf, if_neg hparent, Text.parts, hlist,
      Text.split_append, List.map_append]
    exact congrArg _ hname

/-- The path of an entity goes one further than that of the entity around it. -/
theorem pathOf_childKey (d : DataModel) (parent : String) {name : String} (h : PlainName name) :
    pathOf d (childKey parent name) = (pathOf d parent).child (predicate d name) := by
  simp [pathOf, namesOf_childKey parent h, AttributePath.child]

end Encoder
end Recast
