import Mathlib.Algebra.GroupWithZero.Nat
import Mathlib.Data.List.Forall2

/-!
# Result — values of computations and of lists of them

What is known of a computation that goes on with the value of another, of lists whose elements
correspond to each other, and of a sum over a list of which one element changes.
-/

namespace Recast

variable {ε : Type u} {α β : Type v}

/-- A computation that goes on with the value of another has a value if both have one. -/
theorem bind_eq_ok {x : Except ε α} {f : α → Except ε β} {b : β} :
    x >>= f = .ok b ↔ ∃ a, x = .ok a ∧ f a = .ok b := by
  cases x with
  | error e =>
      constructor
      · intro h
        cases h
      · rintro ⟨a, h, -⟩
        cases h
  | ok a =>
      constructor
      · intro h
        exact ⟨a, rfl, h⟩
      · rintro ⟨a', h, h'⟩
        cases h
        exact h'

/-- A computation that goes on with the value of another fails if one of the two does. -/
theorem bind_eq_error {x : Except ε α} {f : α → Except ε β} {e : ε} :
    x >>= f = .error e ↔ x = .error e ∨ ∃ a, x = .ok a ∧ f a = .error e := by
  cases x with
  | error e' =>
      constructor
      · intro h
        cases h
        exact .inl rfl
      · rintro (h | ⟨a, h, -⟩)
        · cases h
          rfl
        · cases h
  | ok a =>
      constructor
      · intro h
        exact .inr ⟨a, rfl, h⟩
      · rintro (h | ⟨a', h, h'⟩)
        · cases h
        · cases h
          exact h'

theorem ok_bind (a : α) (f : α → Except ε β) : (Except.ok a >>= f) = f a := rfl

/-- Rewording errors leaves values as they are. -/
theorem mapError_eq_ok {ε' : Type w} {f : ε → ε'} {x : Except ε α} {a : α} :
    x.mapError f = .ok a ↔ x = .ok a := by
  cases x <;> simp [Except.mapError]

theorem mapError_eq_error {ε' : Type w} {f : ε → ε'} {x : Except ε α} {e' : ε'} :
    x.mapError f = .error e' ↔ ∃ e, x = .error e ∧ f e = e' := by
  cases x <;> simp [Except.mapError]

theorem toOption_map_eq_some {x : Except ε α} {f : α → β} {b : β} :
    x.toOption.map f = some b ↔ ∃ a, x = .ok a ∧ f a = b := by
  cases x <;> simp [Except.toOption]

/-- A changed value comes from a value. -/
theorem map_eq_ok {f : α → β} {x : Except ε α} {b : β} :
    x.map f = .ok b ↔ ∃ a, x = .ok a ∧ f a = b := by
  cases x <;> simp [Except.map]

/-- What a computation fails with, if it does. -/
def failure? : Except ε α → Option ε
  | .ok _ => none
  | .error e => some e

/-- A computation that fails with nothing has a value. -/
theorem failure?_eq_none_iff {x : Except ε α} : failure? x = none ↔ ∃ a, x = .ok a := by
  cases x <;> simp [failure?]

theorem failure?_map (f : α → β) (x : Except ε α) : failure? (x.map f) = failure? x := by
  cases x <;> rfl

/-- Two computations one after the other fail as the first one of them that does. -/
theorem failure?_bind {x : Except ε α} {f : α → Except ε β} {o : Option ε}
    (h : ∀ a, x = .ok a → failure? (f a) = o) : failure? (x >>= f) = (failure? x).or o := by
  cases x with
  | error e => rfl
  | ok a => exact h a rfl

/-- A computation for each element of a list that gives the element it was made from. -/
theorem mapM_map_eq_ok {f : β → α} {g : α → Except ε β} {bs : List β}
    (h : ∀ b ∈ bs, g (f b) = .ok b) : (bs.map f).mapM g = .ok bs := by
  induction bs with
  | nil => rfl
  | cons b rest ih =>
      have hfirst : g (f b) = .ok b := h b List.mem_cons_self
      have hrest : (rest.map f).mapM g = .ok rest :=
        ih fun c hc => h c (List.mem_cons_of_mem _ hc)
      rw [List.map_cons, List.mapM_cons, hfirst, hrest]
      rfl

/-- Every value of a computation for each element comes from one of them. -/
theorem exists_of_mem_mapM {f : α → Except ε β} {as : List α} {bs : List β}
    (h : as.mapM f = .ok bs) {b : β} (hb : b ∈ bs) : ∃ a ∈ as, f a = .ok b := by
  induction as generalizing bs with
  | nil =>
      obtain rfl := Except.ok.inj h
      cases hb
  | cons a rest ih =>
      rw [List.mapM_cons] at h
      obtain ⟨c, hc, h⟩ := bind_eq_ok.1 h
      obtain ⟨cs, hcs, h⟩ := bind_eq_ok.1 h
      obtain rfl := Except.ok.inj h
      rcases List.mem_cons.1 hb with rfl | hb
      · exact ⟨a, List.mem_cons_self, hc⟩
      · obtain ⟨e, he, heb⟩ := ih hcs hb
        exact ⟨e, List.mem_cons_of_mem _ he, heb⟩

/-- A fault of a computation for each element is that of one of them. -/
theorem exists_of_mapM_error {f : α → Except ε β} {as : List α} {e : ε}
    (h : as.mapM f = .error e) : ∃ a ∈ as, f a = .error e := by
  induction as with
  | nil => cases h
  | cons a rest ih =>
      rw [List.mapM_cons] at h
      rcases bind_eq_error.1 h with hfirst | ⟨b, -, h⟩
      · exact ⟨a, List.mem_cons_self, hfirst⟩
      · rcases bind_eq_error.1 h with hrest | ⟨bs, -, h⟩
        · rcases ih hrest with ⟨a', ha', hfault⟩
          exact ⟨a', List.mem_cons_of_mem _ ha', hfault⟩
        · cases h

/-- A computation for each element fails if that for one of them does. -/
theorem exists_mapM_error {f : α → Except ε β} {as : List α} {a : α} {e : ε} (ha : a ∈ as)
    (h : f a = .error e) : ∃ e', as.mapM f = .error e' := by
  cases hvalues : as.mapM f with
  | error e' => exact ⟨e', rfl⟩
  | ok bs =>
      -- by induction on the list: a result of the whole has a result for every item
      exfalso
      induction as generalizing bs with
      | nil => cases ha
      | cons a' rest ih =>
          rw [List.mapM_cons] at hvalues
          obtain ⟨b, hb, hvalues⟩ := bind_eq_ok.1 hvalues
          obtain ⟨cs, hcs, -⟩ := bind_eq_ok.1 hvalues
          rcases List.mem_cons.1 ha with rfl | ha
          · rw [h] at hb
            cases hb
          · exact ih ha cs hcs

/-- Steps one after the other go on where the first of them end. -/
theorem foldlM_append_ok {f : β → α → Except ε β} {as as' : List α} {b b' : β}
    (h : as.foldlM f b = .ok b') : (as ++ as').foldlM f b = as'.foldlM f b' := by
  rw [List.foldlM_append, h]
  rfl

/-- A fault of steps one after the other is that of one of them. -/
theorem exists_of_foldlM_error {f : β → α → Except ε β} {as : List α} {b : β} {e : ε}
    (h : as.foldlM f b = .error e) : ∃ a ∈ as, ∃ b, f b a = .error e := by
  induction as generalizing b with
  | nil => cases h
  | cons a rest ih =>
      rw [List.foldlM_cons] at h
      cases hfirst : f b a with
      | error e' =>
          rw [hfirst] at h
          obtain rfl := Except.error.inj h
          exact ⟨a, List.mem_cons_self, b, hfirst⟩
      | ok b' =>
          rw [hfirst] at h
          obtain ⟨a', ha', b, hb⟩ := ih h
          exact ⟨a', List.mem_cons_of_mem _ ha', b, hb⟩

/-- What every step keeps is true at the end, if the steps have one. -/
theorem foldlM_ok_invariant {f : β → α → Except ε β} {p : β → Prop} {as : List α} {b b' : β}
    (hstep : ∀ a ∈ as, ∀ b b', p b → f b a = .ok b' → p b') (hb : p b)
    (h : as.foldlM f b = .ok b') : p b' := by
  induction as generalizing b with
  | nil =>
      obtain rfl := Except.ok.inj h
      exact hb
  | cons a rest ih =>
      obtain ⟨c, hc, hrest⟩ := bind_eq_ok.1 h
      have hp := hstep a List.mem_cons_self b c hb hc
      exact ih (fun e he => hstep e (List.mem_cons_of_mem _ he)) hp hrest

/-- What every step keeps holds at the end of all steps. -/
theorem foldlM_some_invariant {f : β → α → Option β} {p : β → Prop} {as : List α} {b b' : β}
    (hstep : ∀ a ∈ as, ∀ b b', p b → f b a = some b' → p b') (hb : p b)
    (h : as.foldlM f b = some b') : p b' := by
  induction as generalizing b with
  | nil =>
      obtain rfl := Option.some.inj h
      exact hb
  | cons a rest ih =>
      obtain ⟨c, hc, hrest⟩ := Option.bind_eq_some_iff.1 h
      have hp := hstep a List.mem_cons_self b c hb hc
      exact ih (fun e he => hstep e (List.mem_cons_of_mem _ he)) hp hrest

/-! ## Lists that correspond -/

/-- Every element of the first list has one that corresponds to it. -/
theorem exists_of_mem_left {R : α → β → Prop} {as : List α} {bs : List β}
    (h : List.Forall₂ R as bs) {a : α} (ha : a ∈ as) : ∃ b ∈ bs, R a b := by
  induction h with
  | nil => cases ha
  | cons hr _ ih =>
      rcases List.mem_cons.1 ha with rfl | ha
      · exact ⟨_, List.mem_cons_self, hr⟩
      · obtain ⟨b, hb, hab⟩ := ih ha
        exact ⟨b, List.mem_cons_of_mem _ hb, hab⟩

/-- Every element of the second list has one that it corresponds to. -/
theorem exists_of_mem_right {R : α → β → Prop} {as : List α} {bs : List β}
    (h : List.Forall₂ R as bs) {b : β} (hb : b ∈ bs) : ∃ a ∈ as, R a b :=
  exists_of_mem_left (R := flip R) h.flip hb

/-- What stands at a place of the first list has its counterpart at the same place of the second. -/
theorem exists_of_getElem? {R : α → β → Prop} {as : List α} {bs : List β}
    (h : List.Forall₂ R as bs) {i : Nat} {a : α} (ha : as[i]? = some a) :
    ∃ b, bs[i]? = some b ∧ R a b := by
  induction h generalizing i with
  | nil => cases ha
  | cons hr _ ih =>
      cases i with
      | zero =>
          obtain rfl := Option.some.inj ha
          exact ⟨_, rfl, hr⟩
      | succ i => exact ih ha

theorem append_of_forall₂_append {R : α → β → Prop} {as as' : List α} {bs : List β}
    (h : List.Forall₂ R (as ++ as') bs) :
    ∃ cs cs', bs = cs ++ cs' ∧ List.Forall₂ R as cs ∧ List.Forall₂ R as' cs' := by
  induction as generalizing bs with
  | nil => exact ⟨[], bs, rfl, .nil, h⟩
  | cons a rest ih =>
      cases h with
      | @cons _ b _ more hr hrest =>
          obtain ⟨cs, cs', rfl, hcs, hcs'⟩ := ih hrest
          exact ⟨b :: cs, cs', rfl, .cons hr hcs, hcs'⟩

section Corresponding

variable {γ : Type w} {R : α → β → Prop} {as : List α} {bs : List β} (h : List.Forall₂ R as bs)

include h

/-- Lists that correspond have the same images if elements that correspond have. -/
theorem map_eq_of_forall₂ {f : α → γ} {g : β → γ} (hfg : ∀ a b, R a b → f a = g b) :
    as.map f = bs.map g := by
  induction h with
  | nil => rfl
  | cons hr _ ih => rw [List.map_cons, List.map_cons, hfg _ _ hr, ih]

theorem filterMap_eq_of_forall₂ {f : α → Option γ} {g : β → Option γ}
    (hfg : ∀ a b, R a b → f a = g b) : as.filterMap f = bs.filterMap g := by
  induction h with
  | nil => rfl
  | cons hr _ ih => rw [List.filterMap_cons, List.filterMap_cons, hfg _ _ hr, ih]

theorem flatMap_eq_of_forall₂ {f : α → List γ} {g : β → List γ} (hfg : ∀ a b, R a b → f a = g b) :
    as.flatMap f = bs.flatMap g := by
  rw [List.flatMap, List.flatMap, map_eq_of_forall₂ h hfg]

/-- Folding lists that correspond gives the same if single steps do. -/
theorem foldl_eq_of_forall₂ {f : γ → α → γ} {g : γ → β → γ}
    (hfg : ∀ a b, R a b → ∀ c, f c a = g c b) (c : γ) : as.foldl f c = bs.foldl g c := by
  induction h generalizing c with
  | nil => rfl
  | cons hr _ ih => rw [List.foldl_cons, List.foldl_cons, hfg _ _ hr, ih]

/-- What passes a test corresponds if elements that correspond pass together. -/
theorem filter_forall₂ {p : α → Bool} {q : β → Bool} (hpq : ∀ a b, R a b → p a = q b) :
    List.Forall₂ R (as.filter p) (bs.filter q) := by
  induction h with
  | nil => exact .nil
  | cons hr _ ih =>
      rw [List.filter_cons, List.filter_cons, hpq _ _ hr]
      split
      · exact .cons hr ih
      · exact ih

/-- The first elements that pass correspond if elements that correspond pass together. -/
theorem find?_forall₂ {p : α → Bool} {q : β → Bool} (hpq : ∀ a b, R a b → p a = q b) :
    Option.Rel R (as.find? p) (bs.find? q) := by
  induction h with
  | nil => exact .none
  | cons hr _ ih =>
      rw [List.find?_cons, List.find?_cons, hpq _ _ hr]
      split
      · exact .some hr
      · exact ih

end Corresponding

/-! ### Readings that correspond to each other -/

section Readings

variable {α : Type u} {β : Type v} {γ : Type w} {δ : Type x} {R : α → β → Prop} {S : γ → δ → Prop}

theorem rel_eq (a? : Option α) : Option.Rel Eq a? a? := by
  cases a? with
  | none => exact .none
  | some a => exact .some rfl

/-- Readings that correspond go on with readings that correspond. -/
theorem rel_bind {a? : Option α} {b? : Option β} (h : Option.Rel R a? b?) {f : α → Option γ}
    {g : β → Option δ} (hfg : ∀ a b, R a b → Option.Rel S (f a) (g b)) :
    Option.Rel S (a?.bind f) (b?.bind g) := by
  cases h with
  | none => exact .none
  | some hab => exact hfg _ _ hab

/-- Values that correspond are changed into values that correspond. -/
theorem rel_map {a? : Option α} {b? : Option β} (h : Option.Rel R a? b?) {f : α → γ} {g : β → δ}
    (hfg : ∀ a b, R a b → S (f a) (g b)) : Option.Rel S (a?.map f) (b?.map g) := by
  cases h with
  | none => exact .none
  | some hab => exact .some (hfg _ _ hab)

end Readings

/-! ## Sums over a list -/

/-- A list of which one element is replaced: the sum loses what the old one counts and gains what the
new one does. -/
theorem sum_map_set {l : List α} {k : Nat} {a : α} (f : α → Nat) (b : α) (h : l[k]? = some a) :
    ((l.set k b).map f).sum + f a = (l.map f).sum + f b := by
  induction l generalizing k with
  | nil => cases h
  | cons c rest ih =>
      cases k with
      | zero =>
          cases h
          simp only [List.set_cons_zero, List.map_cons, List.sum_cons]
          omega
      | succ k =>
          have hrest : ((rest.set k b).map f).sum + f a = (rest.map f).sum + f b := ih h
          simp only [List.set_cons_succ, List.map_cons, List.sum_cons]
          omega

end Recast
