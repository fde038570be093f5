import Recast.Stream.Event

/-!
# Outcome — laws of steps taken one after the other

Two outcomes are *alike* if they hand on the same events and stop with the same refusal, while
their states are related.  Steps that keep a relation give runs that keep it: `Alike.each`.
-/

namespace Recast
namespace Outcome

variable {σ : Type u} {τ : Type v} {α : Type w}

/-! ## Single steps -/

@[simp] theorem each_nil (f : α → σ → Outcome σ) (s : σ) : each f [] s = quiet s := rfl

@[simp] theorem each_cons (f : α → σ → Outcome σ) (a : α) (as : List α) (s : σ) :
    each f (a :: as) s = (f a s).andThen (each f as) := rfl

/-- After a refusal nothing more happens. -/
theorem andThen_of_refusal {o : Outcome σ} {r : Refusal} (h : o.refusal = some r)
    (f : σ → Outcome σ) : o.andThen f = o := by
  simp [andThen, h]

/-- Without a refusal the second step goes on where the first one has ended. -/
theorem andThen_of_none {o : Outcome σ} (h : o.refusal = none) (f : σ → Outcome σ) :
    o.andThen f = ⟨(f o.state).state, o.out ++ (f o.state).out, (f o.state).refusal⟩ := by
  simp [andThen, h]

@[simp] theorem quiet_andThen (s : σ) (f : σ → Outcome σ) : (quiet s).andThen f = f s := by
  simp [andThen, quiet]

@[simp] theorem andThen_quiet (o : Outcome σ) : o.andThen quiet = o := by
  cases h : o.refusal with
  | some r => exact andThen_of_refusal h _
  | none =>
      rw [andThen_of_none h]
      cases o
      simp_all [quiet]

@[simp] theorem each_singleton (f : α → σ → Outcome σ) (a : α) (s : σ) : each f [a] s = f a s :=
  andThen_quiet (f a s)

theorem each_map {β : Type x} (g : β → α) (f : α → σ → Outcome σ) (bs : List β) (s : σ) :
    each f (bs.map g) s = each (fun b => f (g b)) bs s := by
  induction bs generalizing s with
  | nil => rfl
  | cons b bs ih =>
      have htail : each f (bs.map g) = each (fun b => f (g b)) bs := funext ih
      rw [List.map_cons, each_cons, htail, each_cons]

/-- Steps for some items of a list are steps for all of it that leave the others out. -/
theorem each_filter (p : α → Bool) (f : α → σ → Outcome σ) (as : List α) (s : σ) :
    each f (as.filter p) s = each (fun a s => if p a = true then f a s else quiet s) as s := by
  induction as generalizing s with
  | nil => rfl
  | cons a as ih =>
      have htail : each f (as.filter p) = each (fun a s => if p a = true then f a s else quiet s) as :=
        funext ih
      rw [each_cons, ← htail]
      by_cases ha : p a = true
      · rw [List.filter_cons_of_pos ha, each_cons, if_pos ha]
      · rw [List.filter_cons_of_neg ha, if_neg ha, quiet_andThen]

@[simp] theorem hand_andThen (s : σ) (e : Event) (f : σ → Outcome σ) :
    (hand s e).andThen f = ⟨(f s).state, e :: (f s).out, (f s).refusal⟩ := rfl

/-! ## Traces -/

section Trace

variable {β : Type u'} {f : α → σ → Outcome σ} {note : α → σ → List β}

/-- What is noted at steps taken one after the other, as long as none of them is refused. -/
def trace (f : α → σ → Outcome σ) (note : α → σ → List β) : List α → σ → List β
  | [], _ => []
  | a :: rest, s => note a s ++ if (f a s).refusal.isSome then [] else trace f note rest (f a s).state

/-- Steps for a list are refused nowhere if the first is not and the others are not. -/
theorem refusal_each_cons {a : α} {rest : List α} {s : σ} :
    (each f (a :: rest) s).refusal = none ↔
      (f a s).refusal = none ∧ (each f rest (f a s).state).refusal = none := by
  rw [each_cons]
  cases h : (f a s).refusal with
  | some r => simp [andThen_of_refusal h, h]
  | none => simp [andThen_of_none h]

theorem state_each_cons {a : α} {rest : List α} {s : σ} (h : (f a s).refusal = none) :
    (each f (a :: rest) s).state = (each f rest (f a s).state).state := by
  rw [each_cons, andThen_of_none h]

theorem trace_cons {a : α} {rest : List α} {s : σ} (h : (f a s).refusal = none) :
    trace f note (a :: rest) s = note a s ++ trace f note rest (f a s).state := by
  simp [trace, h]

/-- Steps for two lists are refused nowhere if those of neither are. -/
theorem refusal_each_append {as bs : List α} {s : σ} :
    (each f (as ++ bs) s).refusal = none ↔
      (each f as s).refusal = none ∧ (each f bs (each f as s).state).refusal = none := by
  rw [each_append]
  cases h : (each f as s).refusal with
  | some r => simp [andThen_of_refusal h, h]
  | none => simp [andThen_of_none h]

theorem state_each_append {as bs : List α} {s : σ} (h : (each f as s).refusal = none) :
    (each f (as ++ bs) s).state = (each f bs (each f as s).state).state := by
  rw [each_append, andThen_of_none h]

/-- What is noted for two lists is what is noted for the first, and for the second if the first has
not been refused. -/
theorem trace_append (as bs : List α) (s : σ) :
    trace f note (as ++ bs) s = trace f note as s ++
      if (each f as s).refusal.isSome then [] else trace f note bs (each f as s).state := by
  induction as generalizing s with
  | nil => rfl
  | cons a rest ih =>
      rw [List.cons_append, each_cons]
      cases h : (f a s).refusal with
      | some r => simp [trace, andThen_of_refusal h, h]
      | none => simp [trace, andThen_of_none h, h, ih, List.append_assoc]

/-- Whatever is noted is noted at one of the steps. -/
theorem mem_trace {as : List α} {s : σ} {b : β} (h : b ∈ trace f note as s) :
    ∃ a ∈ as, ∃ s', b ∈ note a s' := by
  induction as generalizing s with
  | nil => cases h
  | cons a rest ih =>
      rcases List.mem_append.1 h with h | h
      · exact ⟨a, List.mem_cons_self, s, h⟩
      · split at h
        · cases h
        · obtain ⟨c, hc, s', hs'⟩ := ih h
          exact ⟨c, List.mem_cons_of_mem _ hc, s', hs'⟩

/-- What every step leaves as it is stays as it is. -/
theorem keeps_each {g : σ → β} {as : List α} (hstep : ∀ a ∈ as, ∀ s, g (f a s).state = g s)
    (s : σ) : g (each f as s).state = g s := by
  induction as generalizing s with
  | nil => rfl
  | cons a rest ih =>
      obtain ⟨hfirst, hrest⟩ := List.forall_mem_cons.1 hstep
      cases h : (f a s).refusal with
      | some r => rw [each_cons, andThen_of_refusal h, hfirst]
      | none => rw [state_each_cons h, ih hrest, hfirst]

end Trace

/-! ## What all steps have in common -/

section Common

variable {f : α → σ → Outcome σ} {P : Refusal → Prop}

/-- A refusal of two steps is one of the first or of the second. -/
theorem refusal_andThen_of {o : Outcome σ} {g : σ → Outcome σ} (ho : ∀ r, o.refusal = some r → P r)
    (hg : o.refusal = none → ∀ r, (g o.state).refusal = some r → P r) :
    ∀ r, (o.andThen g).refusal = some r → P r := by
  intro r hr
  cases h : o.refusal with
  | some r' =>
      rw [andThen_of_refusal h] at hr
      exact ho r hr
  | none =>
      rw [andThen_of_none h] at hr
      exact hg h r hr

/-- What every step keeps is true in the end, and no refusal is other than those of single steps. -/
theorem each_invariant {I : σ → Prop} {as : List α} (hstep : ∀ a ∈ as, ∀ s, I s →
      I (f a s).state ∧ ∀ r, (f a s).refusal = some r → P r) {s : σ} (hs : I s) :
    I (each f as s).state ∧ ∀ r, (each f as s).refusal = some r → P r := by
  induction as generalizing s with
  | nil => exact ⟨hs, fun r hr => by cases hr⟩
  | cons a rest ih =>
      obtain ⟨hkept, hrefusal⟩ := hstep a List.mem_cons_self s hs
      have htail := ih (fun b hb => hstep b (List.mem_cons_of_mem _ hb)) hkept
      refine ⟨?_, refusal_andThen_of hrefusal fun _ => htail.2⟩
      cases h : (f a s).refusal with
      | some r => rwa [each_cons, andThen_of_refusal h]
      | none =>
          rw [state_each_cons h]
          exact htail.1

end Common

/-! ## Related runs -/

/-- Two outcomes that cannot be told apart from outside. -/
structure Alike (R : σ → τ → Prop) (o : Outcome σ) (p : Outcome τ) : Prop where
  out : o.out = p.out
  refusal : o.refusal = p.refusal
  state : R o.state p.state

namespace Alike

variable {R : σ → τ → Prop}

theorem quiet {s : σ} {t : τ} (h : R s t) : Alike R (quiet s) (quiet t) :=
  ⟨rfl, rfl, h⟩

theorem hand {s : σ} {t : τ} (h : R s t) (e : Event) : Alike R (hand s e) (hand t e) :=
  ⟨rfl, rfl, h⟩

theorem refuse {s : σ} {t : τ} (h : R s t) (r : Refusal) : Alike R (refuse s r) (refuse t r) :=
  ⟨rfl, rfl, h⟩

/-- Going on in the same way keeps outcomes alike. -/
theorem andThen {o : Outcome σ} {p : Outcome τ} {f : σ → Outcome σ} {g : τ → Outcome τ}
    (h : Alike R o p) (hfg : ∀ s t, R s t → Alike R (f s) (g t)) :
    Alike R (o.andThen f) (p.andThen g) := by
  cases hp : p.refusal with
  | some r =>
      have ho : o.refusal = some r := by rw [h.refusal, hp]
      rw [andThen_of_refusal ho, andThen_of_refusal hp]
      exact h
  | none =>
      have ho : o.refusal = none := by rw [h.refusal, hp]
      have hnext := hfg _ _ h.state
      rw [andThen_of_none ho, andThen_of_none hp]
      refine ⟨?_, hnext.refusal, hnext.state⟩
      simp only [h.out, hnext.out]

/-- The same steps keep outcomes alike. -/
theorem each {f : α → σ → Outcome σ} {g : α → τ → Outcome τ}
    (hfg : ∀ a s t, R s t → Alike R (f a s) (g a t)) (as : List α) {s : σ} {t : τ} (h : R s t) :
    Alike R (each f as s) (each g as t) := by
  induction as generalizing s t with
  | nil => exact quiet h
  | cons a rest ih =>
      rw [each_cons, each_cons]
      exact (hfg a s t h).andThen fun _ _ h' => ih h'

end Alike
end Outcome
end Recast
