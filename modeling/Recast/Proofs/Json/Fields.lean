import Recast.Json.Shape
import Recast.Proofs.Json.Reread
import Recast.Proofs.Result

/-!
# Fields — records of documents

Two documents may have the same fields with values that are alike.  What is read from the fields is
alike then, also where both documents are clipped.  And whatever is read from fields has been read from
a document, or stands for a field that is missing; a record that is printed has the fields it was
printed with.

* `Json.Written.FieldsAlike` — documents whose fields are alike;
* `Json.Written.fields?_clip` — the fields of a clipped document;
* `Json.Fields.of_defaulted`, `Json.Written.of_list?`, `Json.Written.of_nullable?` — what is read;
* `Json.Written.fields?_document`, `Json.Written.list?_document`, `Json.Written.nullable?_document` —
  what is printed.
-/

namespace Recast
namespace Json

namespace Fields

def Alike (R : String → Written → Written → Prop) (f g : Fields) : Prop :=
  ∀ name, Option.Rel (R name) (f.found.lookup name) (g.found.lookup name)

def clip (n : Nat) (f : Fields) : Fields :=
  ⟨f.listed, f.found.map fun kw => (kw.1, kw.2.clip n)⟩

/-- What is found among clipped fields is what was found, clipped. -/
theorem lookup_clip (n : Nat) (f : Fields) (name : String) :
    (f.clip n).found.lookup name = (f.found.lookup name).map (Written.clip n) := by
  obtain ⟨listed, found⟩ := f
  simp only [clip]
  induction found with
  | nil => rfl
  | cons kw rest ih =>
      obtain ⟨k, w⟩ := kw
      rw [List.map_cons, List.lookup_cons, List.lookup_cons, ih]
      cases name == k <;> rfl

theorem defaulted_clip {α : Type} (n : Nat) (f : Fields) (name : String) (missing : α)
    (read? : Written → Option α) : (f.clip n).defaulted name missing read? =
      f.defaulted name missing fun w => read? (w.clip n) := by
  rw [defaulted, defaulted, lookup_clip]
  cases f.found.lookup name <;> rfl

theorem required_clip {α : Type} (n : Nat) (f : Fields) (name : String)
    (read? : Written → Option α) : (f.clip n).required name read? =
      f.required name fun w => read? (w.clip n) := by
  rw [required, required, lookup_clip, Option.bind_map]
  rfl

namespace Alike

variable {α β : Type} {R : String → Written → Written → Prop} {S : α → β → Prop} {f g : Fields}

/-- Fields that are alike are read alike, also where one is missing. -/
theorem defaulted (h : f.Alike R g) (name : String) {a : α} {b : β} (hab : S a b)
    {readf? : Written → Option α} {readg? : Written → Option β}
    (hread : ∀ u v, R name u v → Option.Rel S (readf? u) (readg? v)) :
    Option.Rel S (f.defaulted name a readf?) (g.defaulted name b readg?) := by
  have hname := h name
  unfold Fields.defaulted
  generalize f.found.lookup name = u, g.found.lookup name = v at hname
  cases hname with
  | none => exact .some hab
  | some huv => exact hread _ _ huv

/-- Fields that are alike and must be there are read alike. -/
theorem required (h : f.Alike R g) (name : String) {readf? : Written → Option α}
    {readg? : Written → Option β}
    (hread : ∀ u v, R name u v → Option.Rel S (readf? u) (readg? v)) :
    Option.Rel S (f.required name readf?) (g.required name readg?) :=
  rel_bind (h name) hread

/-- Fields that come one by one with values that are alike. -/
theorem of_forall₂
    (h : List.Forall₂ (fun a b => a.1 = b.1 ∧ R a.1 a.2 b.2) f.found g.found) : f.Alike R g := by
  intro name
  obtain ⟨listed, found⟩ := f
  obtain ⟨listed', found'⟩ := g
  simp only at h ⊢
  induction h with
  | nil => exact .none
  | @cons a b _ _ hab _ ih =>
      obtain ⟨k, u⟩ := a
      obtain ⟨l, v⟩ := b
      obtain ⟨rfl, huv⟩ := hab
      rw [List.lookup_cons, List.lookup_cons]
      -- the field is this one on both sides, or one behind it
      cases hname : name == k with
      | true =>
          obtain rfl := eq_of_beq hname
          exact .some huv
      | false => exact ih

/-- Where only the same values are alike, the same value is found. -/
theorem lookup_eq (h : f.Alike R g) {name : String} (hsame : ∀ u v, R name u v → u = v) :
    f.found.lookup name = g.found.lookup name := by
  have hname := h name
  generalize f.found.lookup name = u, g.found.lookup name = v at hname
  cases hname with
  | none => rfl
  | some huv => rw [hsame _ _ huv]

theorem defaulted_eq (h : f.Alike R g) (name : String) (hsame : ∀ u v, R name u v → u = v) (a : α)
    (read? : Written → Option α) : f.defaulted name a read? = g.defaulted name a read? := by
  rw [Fields.defaulted, Fields.defaulted, h.lookup_eq hsame]

theorem required_eq (h : f.Alike R g) (name : String) (hsame : ∀ u v, R name u v → u = v)
    (read? : Written → Option α) : f.required name read? = g.required name read? := by
  rw [Fields.required, Fields.required, h.lookup_eq hsame]

end Alike
end Fields

namespace Written

/-- Two documents have fields of the given names, and their values are alike. -/
def FieldsAlike (names : List String) (R : String → Written → Written → Prop) (w w' : Written) :
    Prop :=
  ∃ f g, w.fields? names = some f ∧ w'.fields? names = some g ∧ f.Alike R g

/-- Clipping leaves keys as they are. -/
theorem keys?_clip (n : Nat) (members : List (List Piece × Written)) :
    keys? (clipMembers n members) =
      (keys? members).map fun kws => kws.map fun kw => (kw.1, kw.2.clip n) := by
  induction members with
  | nil => rfl
  | cons m rest ih =>
      obtain ⟨k, w⟩ := m
      rw [clipMembers, clipMember, keys?, keys?, ih]
      cases decode? k with
      | none => rfl
      | some s => cases keys? rest <;> rfl

/-- The fields of a clipped document are clipped. -/
theorem fields?_clip (names : List String) (n : Nat) (w : Written) :
    (w.clip (n + 1)).fields? names = (w.fields? names).map (Fields.clip n) := by
  cases w with
  | object members =>
      rw [clip, fields?, fields?, keys?_clip]
      cases keys? members with
      | none => rfl
      | some kws =>
          -- which keys there are does not depend on the values
          have hknown : (kws.map fun kw => (kw.1, clip n kw.2)).filter
              (fun kw => names.contains kw.1) =
                (kws.filter fun kw => names.contains kw.1).map fun kw => (kw.1, clip n kw.2) :=
            List.filter_map
          have hkeys : ∀ kws : List (String × Written),
              (kws.map fun kw => (kw.1, clip n kw.2)).map Prod.fst = kws.map Prod.fst := by
            intro kws
            rw [List.map_map]
            rfl
          simp only [Option.map_some, Option.bind_eq_bind, Option.bind_some, hknown, hkeys]
          split <;> rfl
  | array items =>
      rw [clip, clipItems_eq, fields?, fields?, List.length_map]
      split
      · simp [Fields.clip, List.zip_map_right]
      · rfl
  | _ => rfl

/-- Documents with fields that are alike have them also when they are clipped. -/
theorem FieldsAlike.fields?_clip {names : List String} {R : String → Written → Written → Prop}
    {w w' : Written} (h : FieldsAlike names R w w') (n : Nat) : ∃ f g : Fields,
      (w.clip (n + 1)).fields? names = some (f.clip n) ∧
        (w'.clip (n + 1)).fields? names = some (g.clip n) ∧ f.Alike R g := by
  obtain ⟨f, g, hf, hg, hfg⟩ := h
  refine ⟨f, g, ?_, ?_, hfg⟩
  · rw [Written.fields?_clip, hf, Option.map_some]
  · rw [Written.fields?_clip, hg, Option.map_some]

end Written

/-! ## What is read -/

section Read

variable {α : Type} {p : α → Prop} {read? : Written → Option α}

/-- What is true of a missing field and of whatever can be read is true of the field. -/
theorem Fields.of_defaulted {f : Fields} {name : String} {missing a : α}
    (h : f.defaulted name missing read? = some a) (hmissing : p missing)
    (hread : ∀ w a, read? w = some a → p a) : p a := by
  unfold Fields.defaulted at h
  cases hlookup : f.found.lookup name with
  | none =>
      rw [hlookup] at h
      cases h
      exact hmissing
  | some w =>
      rw [hlookup] at h
      exact hread w a h

/-- What is true of whatever can be read is true of the field. -/
theorem Fields.of_required {f : Fields} {name : String} {a : α}
    (h : f.required name read? = some a) (hread : ∀ w a, read? w = some a → p a) : p a := by
  obtain ⟨w, -, hw⟩ := Option.bind_eq_some_iff.1 h
  exact hread w a hw

namespace Written

theorem of_nullable? {w : Written} {o : Option α} (h : w.nullable? read? = some o)
    (hread : ∀ w a, read? w = some a → p a) : ∀ a ∈ o, p a := by
  intro a ha
  obtain rfl : o = some a := ha
  unfold nullable? at h
  split at h
  · cases h
  · obtain ⟨b, hb, heq⟩ := Option.map_eq_some_iff.1 h
    cases heq
    exact hread _ a hb

/-- What is true of every item that can be read is true of all items of a list. -/
theorem of_list? {w : Written} {as : List α} (h : w.list? read? = some as)
    (hread : ∀ w a, read? w = some a → p a) : ∀ a ∈ as, p a := by
  cases w with
  | array items =>
      rw [list?] at h
      induction items generalizing as with
      | nil =>
          cases h
          simp
      -- the first value is read, and then the rest
      | cons w rest ih =>
          rw [List.mapM_cons] at h
          obtain ⟨a, ha, h⟩ := Option.bind_eq_some_iff.1 h
          obtain ⟨bs, hbs, h⟩ := Option.bind_eq_some_iff.1 h
          cases h
          exact List.forall_mem_cons.2 ⟨hread w a ha, ih hbs⟩
  | _ => cases h

end Written
end Read

/-! ## What is printed -/

/-- Items are printed one by one. -/
theorem itemsDocument_eq (items : List Json) : itemsDocument items = items.map document := by
  induction items with
  | nil => rfl
  | cons v rest ih => rw [itemsDocument, List.map_cons, ih]

/-- Items are whole if each of them is. -/
theorem wholeItems_iff {items : List Json} :
    wholeItems items = true ↔ ∀ v ∈ items, v.whole = true := by
  induction items with
  | nil => simp [wholeItems]
  | cons v rest ih => rw [wholeItems, Bool.and_eq_true, ih, List.forall_mem_cons]

/-- Members are whole if all their values are. -/
theorem wholeMembers_iff {members : List (String × Json)} :
    wholeMembers members = true ↔ ∀ m ∈ members, m.2.whole = true := by
  induction members with
  | nil => simp [wholeMembers]
  | cons m rest ih =>
      obtain ⟨k, v⟩ := m
      rw [wholeMembers, Bool.and_eq_true, ih, List.forall_mem_cons]
      rfl

theorem whole_ofString? (o : Option String) : (ofString? o).whole = true := by
  cases o <;> rfl

theorem whole_getD_null {α : Type} {toJson : α → Json} {o : Option α}
    (h : ∀ a ∈ o, (toJson a).whole = true) : ((o.map toJson).getD .null).whole = true := by
  cases o with
  | none => rfl
  | some a => exact h a rfl

namespace Written

theorem string?_document (s : String) : (Json.string s).document.string? = some s :=
  decode?_quoted s

theorem choice?_document (s : String) : (Json.string s).document.choice? = some s :=
  decode?_quoted s

/-- The keys of members are read back from what is printed. -/
theorem keys?_membersDocument (members : List (String × Json)) :
    keys? (membersDocument members) = some (members.map fun m => (m.1, m.2.document)) := by
  induction members with
  | nil => rfl
  | cons m rest ih =>
      obtain ⟨k, v⟩ := m
      simp [membersDocument, memberDocument, keys?, decode?_quoted, ih]

/-- An object with fields of a record and no other members. -/
theorem fields?_object {names : List String} {members : List (List Piece × Written)}
    {found : List (String × Written)} (hkeys : keys? members = some found)
    (hnodup : (found.map Prod.fst).Nodup) (hknown : ∀ kw ∈ found, kw.1 ∈ names) :
    (Written.object members).fields? names = some ⟨false, found⟩ := by
  have hall : found.filter (fun kw => names.contains kw.1) = found :=
    List.filter_eq_self.2 fun kw hkw => by simpa using hknown kw hkw
  simp only [fields?, hkeys, Option.bind_eq_bind, Option.bind_some, hall, if_pos hnodup]

/-- The fields of an object are read back from what is printed, if its keys are distinct and known.
-/
theorem fields?_document {names : List String} {members : List (String × Json)}
    (hnodup : (members.map Prod.fst).Nodup) (hknown : ∀ m ∈ members, m.1 ∈ names) :
    (Json.object members).document.fields? names =
      some ⟨false, members.map fun m => (m.1, m.2.document)⟩ := by
  refine fields?_object (keys?_membersDocument members) ?_ ?_
  · simpa [Function.comp_def] using hnodup
  · intro kw hkw
    obtain ⟨m, hm, rfl⟩ := List.mem_map.1 hkw
    exact hknown m hm

variable {α : Type} {read? : Written → Option α} {toJson : α → Json}

/-- An array of what can be read one by one. -/
theorem list?_document {as : List α} (h : ∀ a ∈ as, read? (toJson a).document = some a) :
    (Json.array (as.map toJson)).document.list? read? = some as := by
  rw [document, list?, itemsDocument_eq, List.map_map]
  induction as with
  | nil => rfl
  | cons a rest ih =>
      have hfirst : read? (document (toJson a)) = some a := h a List.mem_cons_self
      have hrest := ih fun b hb => h b (List.mem_cons_of_mem _ hb)
      simp only [List.map_cons, List.mapM_cons, Function.comp_apply, hfirst, hrest,
        Option.bind_eq_bind, Option.bind_some, Option.pure_def]

/-- An object of values that can be read one by one. -/
theorem entries?_document {entries : List (String × α)}
    (h : ∀ e ∈ entries, read? (toJson e.2).document = some e.2) :
    (Json.object (entries.map fun e => (e.1, toJson e.2))).document.entries? read? =
      some entries := by
  rw [document, Written.entries?, keys?_membersDocument, List.map_map, Option.bind_eq_bind,
    Option.bind_some]
  induction entries with
  | nil => rfl
  | cons e rest ih =>
      have hfirst : read? (document (toJson e.2)) = some e.2 := h e List.mem_cons_self
      have hrest := ih fun b hb => h b (List.mem_cons_of_mem _ hb)
      simp only [List.map_cons, List.mapM_cons, Function.comp_apply, hfirst, hrest,
        Option.map_some, Option.bind_eq_bind, Option.bind_some, Option.pure_def]

/-- What is null if it is missing can be read if it is not null itself. -/
theorem nullable?_document {o : Option α}
    (h : ∀ a ∈ o, toJson a ≠ .null ∧ read? (toJson a).document = some a) :
    ((o.map toJson).getD .null).document.nullable? read? = some o := by
  cases o with
  | none => rfl
  | some a =>
      obtain ⟨hnull, hread⟩ := h a rfl
      -- only null is written as null
      have hdocument : (toJson a).document ≠ .null := by
        intro heq
        cases hvalue : toJson a with
        | null => exact hnull hvalue
        | number n =>
            rw [hvalue] at heq
            cases n <;> cases heq
        | _ =>
            rw [hvalue] at heq
            cases heq
      rw [Option.map_some, Option.getD_some]
      unfold nullable?
      split
      · rename_i heq
        exact absurd heq hdocument
      · rw [hread, Option.map_some]

/-- A string that may be missing. -/
theorem nullable?_ofString? (o : Option String) :
    (ofString? o).document.nullable? string? = some o := by
  have hsame : ofString? o = (o.map Json.string).getD .null := by cases o <;> rfl
  rw [hsame]
  exact nullable?_document fun s _ => ⟨nofun, string?_document s⟩

end Written
end Json
end Recast
