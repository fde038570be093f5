import Mathlib.Data.List.Forall2
import Recast.Config.Environment
import Recast.Proofs.Result

/-!
# References — configurations with variables of the environment in them

A tree of values is resolved if and only if every reference in it, at whatever depth, names a variable
that is set, and then nothing but the references is replaced: `Toml.resolves`.

* `Toml.referenceTo` — the text that refers to a variable;
* `Toml.Holds` — a text stands somewhere in a tree;
* `Toml.Resolved` — a tree next to the same tree with its references replaced.
-/

namespace Recast
namespace Toml

variable {env : Environment} {name s : String} {v w : Toml}

def referenceTo (name : String) : String :=
  "\x7benv:" ++ name ++ "\x7d"

/-- A text stands in a tree of values, as a value at any depth. -/
inductive Holds : Toml → String → Prop
  | text (s : String) : Holds (.string s) s
  | item {items : List Toml} {v : Toml} {s : String} (hv : v ∈ items) (h : Holds v s) :
      Holds (.array items) s
  | entry {es : List (String × Toml)} {e : String × Toml} {s : String} (he : e ∈ es)
      (h : Holds e.2 s) : Holds (.table es) s

/-- The second tree is the first one with every reference replaced by the value of its variable.
Arrays keep their lengths and tables their keys, and every other value is the same. -/
inductive Resolved (env : Environment) : Toml → Toml → Prop
  | reference {name value : String} (h : env name = some value) :
      Resolved env (.string (referenceTo name)) (.string value)
  | text {s : String} (h : ∀ name, s ≠ referenceTo name) : Resolved env (.string s) (.string s)
  | integer (n : Int) : Resolved env (.integer n) (.integer n)
  | float (bits : UInt64) : Resolved env (.float bits) (.float bits)
  | boolean (b : Bool) : Resolved env (.boolean b) (.boolean b)
  | moment (m : Moment) : Resolved env (.moment m) (.moment m)
  | array {items items' : List Toml} (h : List.Forall₂ (Resolved env) items items') :
      Resolved env (.array items) (.array items')
  | table {es es' : List (String × Toml)} (hkeys : es.map Prod.fst = es'.map Prod.fst)
      (h : List.Forall₂ (Resolved env) (es.map Prod.snd) (es'.map Prod.snd)) :
      Resolved env (.table es) (.table es')

/-! ## Texts that refer to variables -/

theorem toList_referenceTo (name : String) :
    (referenceTo name).toList = '{' :: 'e' :: 'n' :: 'v' :: ':' :: (name.toList ++ ['}']) := by
  simp [referenceTo, String.toList_append]

/-- The name in a text that refers to a variable is found. -/
theorem reference?_referenceTo (name : String) : reference? (referenceTo name) = some name := by
  simp [reference?, toList_referenceTo]

/-- No other text refers to a variable. -/
theorem reference?_eq_some_iff : reference? s = some name ↔ s = referenceTo name := by
  constructor
  · intro h
    unfold reference? at h
    split at h
    · -- the text starts as a reference does, and ends as one
      rename_i rest hs
      split at h
      · rename_i hlast
        obtain rfl := Option.some.inj h
        apply String.toList_inj.1
        rw [hs, toList_referenceTo, String.toList_ofList, List.dropLast_append_getLast?]
        simpa using hlast
      · cases h
    · cases h
  · rintro rfl
    exact reference?_referenceTo name

/-! ## What is referred to -/

mutual
/-- The variables that are listed for a tree are those that texts in it refer to. -/
theorem mem_references_iff : ∀ v : Toml, name ∈ v.references ↔ v.Holds (referenceTo name)
  | .string s => by
      rw [references, Option.mem_toList, reference?_eq_some_iff]
      constructor
      · rintro rfl
        exact .text _
      · rintro ⟨⟩
        rfl
  | .array items => by
      rw [references, mem_referencesOfItems_iff items]
      constructor
      · rintro ⟨v, hv, h⟩
        exact .item hv h
      · rintro (_ | ⟨hv, h⟩)
        exact ⟨_, hv, h⟩
  | .table es => by
      rw [references, mem_referencesOfEntries_iff es]
      constructor
      · rintro ⟨e, he, h⟩
        exact .entry he h
      · rintro (_ | _ | ⟨he, h⟩)
        exact ⟨_, he, h⟩
  | .integer _ | .float _ | .boolean _ | .moment _ => by
      rw [references]
      exact ⟨nofun, nofun⟩

/-- Items refer to a variable if a reference to it stands in one of them. -/
theorem mem_referencesOfItems_iff : ∀ items : List Toml,
    name ∈ referencesOfItems items ↔ ∃ v ∈ items, v.Holds (referenceTo name)
  | [] => by simp [referencesOfItems]
  | v :: rest => by
      rw [referencesOfItems, List.mem_append, mem_references_iff v, mem_referencesOfItems_iff rest]
      simp

/-- Entries refer to a variable if a reference to it stands in the value of one of them. -/
theorem mem_referencesOfEntries_iff : ∀ es : List (String × Toml),
    name ∈ referencesOfEntries es ↔ ∃ e ∈ es, e.2.Holds (referenceTo name)
  | [] => by simp [referencesOfEntries]
  | e :: rest => by
      rw [referencesOfEntries, List.mem_append, mem_referencesOfEntry_iff e,
        mem_referencesOfEntries_iff rest]
      simp

theorem mem_referencesOfEntry_iff : ∀ e : String × Toml,
    name ∈ referencesOfEntry e ↔ e.2.Holds (referenceTo name)
  | (_, v) => mem_references_iff v
end

/-! ## Where resolving fails -/

def firstUnset? (env : Environment) (names : List String) : Option String :=
  names.find? fun n => (env n).isNone

/-- The first variable that is not set is looked for in the front part first. -/
theorem firstUnset?_append (env : Environment) (ns ms : List String) :
    firstUnset? env (ns ++ ms) = (firstUnset? env ns).or (firstUnset? env ms) :=
  List.find?_append

/-- Resolving a text fails with the variable it refers to, if that is not set. -/
theorem failure?_resolveText (env : Environment) (s : String) :
    failure? (resolveText env s) = firstUnset? env (reference? s).toList := by
  unfold resolveText
  cases hs : reference? s with
  | none => rfl
  | some n =>
      cases hn : env n with
      | none => simp [failure?, firstUnset?, hn]
      | some value => simp [failure?, firstUnset?, hn]

mutual
/-- A tree is not resolved if and only if a variable is not set; it fails with the first of these. -/
theorem failure?_resolve (env : Environment) : ∀ v : Toml,
    failure? (resolve env v) = firstUnset? env v.references
  | .string s => by rw [resolve, failure?_map, failure?_resolveText, references]
  | .array items => by rw [resolve, failure?_map, failure?_resolveItems env items, references]
  | .table es => by rw [resolve, failure?_map, failure?_resolveEntries env es, references]
  | .integer _ | .float _ | .boolean _ | .moment _ => by
      rw [resolve, references]
      rfl

/-- Resolving items fails with the first variable in them that is not set. -/
theorem failure?_resolveItems (env : Environment) : ∀ items : List Toml,
    failure? (resolveItems env items) = firstUnset? env (referencesOfItems items)
  | [] => rfl
  | v :: rest => by
      rw [resolveItems, referencesOfItems, firstUnset?_append, ← failure?_resolve env v,
        ← failure?_resolveItems env rest]
      refine failure?_bind fun w _ => ?_
      cases resolveItems env rest <;> rfl

/-- Resolving entries fails with the first variable in them that is not set. -/
theorem failure?_resolveEntries (env : Environment) : ∀ es : List (String × Toml),
    failure? (resolveEntries env es) = firstUnset? env (referencesOfEntries es)
  | [] => rfl
  | e :: rest => by
      rw [resolveEntries, referencesOfEntries, firstUnset?_append, ← failure?_resolveEntry env e,
        ← failure?_resolveEntries env rest]
      refine failure?_bind fun w _ => ?_
      cases resolveEntries env rest <;> rfl

theorem failure?_resolveEntry (env : Environment) : ∀ e : String × Toml,
    failure? (resolveEntry env e) = firstUnset? env (referencesOfEntry e)
  | (_, v) => by rw [resolveEntry, failure?_map, failure?_resolve env v, referencesOfEntry]
end

/-- If none of some variables is the first that is not set, all of them are set. -/
theorem firstUnset?_eq_none_iff {names : List String} :
    firstUnset? env names = none ↔ ∀ n ∈ names, ∃ value, env n = some value := by
  simp [firstUnset?, Option.ne_none_iff_exists']

/-! ## What is resolved -/

/-- A text is resolved to the value of the variable it refers to, or to itself if it refers to none.
-/
theorem resolveText_eq_ok_iff {value : String} :
    resolveText env s = .ok value ↔ Resolved env (.string s) (.string value) := by
  unfold resolveText
  cases hs : reference? s with
  -- a text that is no reference stands for itself
  | none =>
      have hno : ∀ name, s ≠ referenceTo name := by
        rintro name rfl
        rw [reference?_referenceTo] at hs
        cases hs
      constructor
      · rintro ⟨⟩
        exact .text hno
      · intro h
        cases h with
        | @reference name => exact absurd rfl (hno name)
        | text => rfl
  | some name =>
      -- a reference is resolved where its variable is set, and to that value only
      obtain rfl := reference?_eq_some_iff.1 hs
      constructor
      · intro h
        cases hvalue : env name with
        | none => simp [hvalue] at h
        | some value' =>
            obtain rfl : value' = value := by simpa [hvalue] using h
            exact .reference hvalue
      · intro h
        -- the text determines the name of the reference
        generalize htext : referenceTo name = text at h
        cases h with
        | @reference name' _ hvalue =>
            have hname := reference?_referenceTo name
            rw [htext, reference?_referenceTo] at hname
            obtain rfl := Option.some.inj hname
            simp [hvalue]
        | text hno => exact absurd htext.symm (hno name)

mutual
/-- A tree is resolved to the one in which all references are replaced. -/
theorem resolve_eq_ok_iff : ∀ v w : Toml, resolve env v = .ok w ↔ Resolved env v w
  | .string s, w => by
      rw [resolve, map_eq_ok]
      constructor
      · rintro ⟨value, h, rfl⟩
        exact resolveText_eq_ok_iff.1 h
      · intro h
        cases h with
        | reference hvalue => exact ⟨_, resolveText_eq_ok_iff.2 (.reference hvalue), rfl⟩
        | text hno => exact ⟨_, resolveText_eq_ok_iff.2 (.text hno), rfl⟩
  | .array items, w => by
      rw [resolve, map_eq_ok]
      constructor
      · rintro ⟨items', h, rfl⟩
        exact .array ((resolveItems_eq_ok_iff items items').1 h)
      · rintro (_ | _ | _ | _ | _ | _ | h)
        exact ⟨_, (resolveItems_eq_ok_iff items _).2 h, rfl⟩
  | .table es, w => by
      rw [resolve, map_eq_ok]
      constructor
      · rintro ⟨es', h, rfl⟩
        obtain ⟨hkeys, hvalues⟩ := (resolveEntries_eq_ok_iff es es').1 h
        exact .table hkeys hvalues
      · intro h
        cases h with
        | table hkeys hvalues => exact ⟨_, (resolveEntries_eq_ok_iff es _).2 ⟨hkeys, hvalues⟩, rfl⟩
  -- there are no references in the other values, which stay as they are
  | .integer n, w => by
      rw [resolve]
      constructor
      · rintro ⟨⟩
        exact .integer n
      · rintro ⟨⟩
        rfl
  | .float bits, w => by
      rw [resolve]
      constructor
      · rintro ⟨⟩
        exact .float bits
      · rintro ⟨⟩
        rfl
  | .boolean b, w => by
      rw [resolve]
      constructor
      · rintro ⟨⟩
        exact .boolean b
      · rintro ⟨⟩
        rfl
  | .moment m, w => by
      rw [resolve]
      constructor
      · rintro ⟨⟩
        exact .moment m
      · rintro ⟨⟩
        rfl

theorem resolveItems_eq_ok_iff : ∀ items items' : List Toml,
    resolveItems env items = .ok items' ↔ List.Forall₂ (Resolved env) items items'
  | [], items' => by
      rw [resolveItems, List.forall₂_nil_left_iff]
      constructor
      · rintro ⟨⟩
        rfl
      · rintro rfl
        rfl
  | v :: rest, items' => by
      -- the first value is resolved before the others
      rw [resolveItems, bind_eq_ok, List.forall₂_cons_left_iff]
      simp only [bind_eq_ok, resolve_eq_ok_iff v, resolveItems_eq_ok_iff rest]
      constructor
      · rintro ⟨w, hw, ws, hws, h⟩
        exact ⟨w, ws, hw, hws, (Except.ok.inj h).symm⟩
      · rintro ⟨w, ws, hw, hws, rfl⟩
        exact ⟨w, hw, ws, hws, rfl⟩

theorem resolveEntries_eq_ok_iff : ∀ es es' : List (String × Toml),
    resolveEntries env es = .ok es' ↔ es.map Prod.fst = es'.map Prod.fst ∧
      List.Forall₂ (Resolved env) (es.map Prod.snd) (es'.map Prod.snd)
  | [], es' => by
      rw [resolveEntries, List.map_nil, List.map_nil, List.forall₂_nil_left_iff]
      constructor
      · intro h
        obtain rfl := Except.ok.inj h
        exact ⟨rfl, rfl⟩
      · rintro ⟨-, h⟩
        rw [List.map_eq_nil_iff.1 h]
  | e :: rest, es' => by
      rw [resolveEntries, bind_eq_ok]
      simp only [bind_eq_ok, resolveEntry_eq_ok_iff e, resolveEntries_eq_ok_iff rest]
      constructor
      · -- the keys stay, the values are resolved one by one
        rintro ⟨e', ⟨hkey, hvalue⟩, rest', ⟨hkeys, hvalues⟩, h⟩
        obtain rfl := Except.ok.inj h
        exact ⟨List.cons_eq_cons.2 ⟨hkey, hkeys⟩, .cons hvalue hvalues⟩
      · rintro ⟨hkeys, hvalues⟩
        cases es' with
        | nil => cases hkeys
        | cons e' rest' =>
            obtain ⟨hkey, hkeys⟩ := List.cons_eq_cons.1 hkeys
            obtain ⟨hvalue, hvalues⟩ := List.forall₂_cons.1 hvalues
            exact ⟨e', ⟨hkey, hvalue⟩, rest', ⟨hkeys, hvalues⟩, rfl⟩

theorem resolveEntry_eq_ok_iff : ∀ e e' : String × Toml,
    resolveEntry env e = .ok e' ↔ e.1 = e'.1 ∧ Resolved env e.2 e'.2
  | (k, v), (k', v') => by
      rw [resolveEntry, map_eq_ok]
      simp only [resolve_eq_ok_iff v, Prod.mk.injEq]
      constructor
      · rintro ⟨_, h, rfl, rfl⟩
        exact ⟨rfl, h⟩
      · rintro ⟨rfl, h⟩
        exact ⟨v', h, rfl, rfl⟩
end

/-- A tree is resolved if and only if every reference that stands in it names a variable that is set.
What it is resolved to is the same tree with every reference replaced by the value of its variable, and
nothing else, so that values are put in as they are.  Otherwise it fails with a variable that is referred
to and not set, the first one in the order of the tree. -/
theorem resolves (env : Environment) (v : Toml) :
    ((∃ w, resolve env v = .ok w) ↔
      ∀ name, v.Holds (referenceTo name) → ∃ value, env name = some value) ∧
    (∀ w, resolve env v = .ok w ↔ Resolved env v w) ∧
    ∀ name, resolve env v = .error name → v.Holds (referenceTo name) ∧ env name = none ∧
      firstUnset? env v.references = some name := by
  refine ⟨?_, resolve_eq_ok_iff v, fun name h => ?_⟩
  · rw [← failure?_eq_none_iff, failure?_resolve, firstUnset?_eq_none_iff]
    simp only [mem_references_iff]
  · have hfirst : firstUnset? env v.references = some name := by
      rw [← failure?_resolve, h]
      rfl
    have hunset : env name = none := by simpa using List.find?_some hfirst
    exact ⟨(mem_references_iff v).1 (List.mem_of_find?_eq_some hfirst), hunset, hfirst⟩

example : resolve (fun n => if n = "A" then some (referenceTo "B") else none)
    (.table [(referenceTo "A",
      .array [.string (referenceTo "A"), .string ("x" ++ referenceTo "B")])]) =
    .ok (.table [(referenceTo "A",
      .array [.string (referenceTo "B"), .string ("x" ++ referenceTo "B")])]) := by
  rfl

end Toml
end Recast
