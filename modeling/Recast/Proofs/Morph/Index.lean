import Mathlib.Data.List.Sort
import Recast.Morph.Run
import Recast.Proofs.Morph.Reading
import Recast.Proofs.Morph.Starred
import Recast.Proofs.Stream.Outcome

/-!
# Index — looking rules up is scanning them

The places that the index of some sources gives for a path are those of the sources that accept the
path, each of them once and in ascending order: `Index.places_ofSources`.  So the rules that a
script looks up are those that a scan of all its rules would find: `Morph.listeners_eq`.  A script
could be run without an index: go through all rules in their order and run those whose source spells
the path.  This is what a program does with a value: `Morph.dispatch_eq_scan`.
-/

namespace Recast
namespace Index

/-! ## What an index holds -/

/-- The plain sources among some stand under their paths, with their places in order. -/
theorem get?_foldl_add (path : String) (ps : List (String × Nat)) (x : Index) :
    ((ps.foldl add x).exact.get? path).getD [] = (x.exact.get? path).getD [] ++
      (ps.filter fun p => !Source.isStarred p.1 && p.1 == path).map Prod.snd := by
  induction ps generalizing x with
  | nil => simp
  | cons p ps ih =>
      rw [List.foldl_cons, ih]
      by_cases hstar : Source.isStarred p.1 = true
      · -- a starred source leaves the plain ones as they are
        have hexact : (x.add p).exact = x.exact := by
          rw [add, if_pos hstar]
          split <;> rfl
        rw [hexact, List.filter_cons_of_neg (by simp [hstar])]
      · rw [add, if_neg hstar, OrderedMap.get?_put]
        by_cases hpath : p.1 = path
        · subst hpath
          rw [if_pos rfl, List.filter_cons_of_pos (by simp [hstar])]
          simp
        · rw [if_neg hpath, List.filter_cons_of_neg (by simp [hpath])]

def patternOf (source : String) : Pattern :=
  .ofExpression (Source.patternText source) ⟨Source.tree source.toList, 0, []⟩

/-- The starred sources among some have their regular expressions, in order. -/
theorem patterns_foldl_add (ps : List (String × Nat)) (x : Index) :
    (ps.foldl add x).patterns = x.patterns ++
      (ps.filter fun p => Source.isStarred p.1).map fun p => (patternOf p.1, p.2) := by
  induction ps generalizing x with
  | nil => simp
  | cons p ps ih =>
      rw [List.foldl_cons, ih]
      by_cases hstar : Source.isStarred p.1 = true
      · rw [add, if_pos hstar, Source.expression?_eq, List.filter_cons_of_pos (by exact hstar)]
        simp [patternOf]
      · rw [add, if_neg hstar, List.filter_cons_of_neg (by exact hstar)]

/-! ## Places in order -/

/-- Putting a place among others is insertion into a sorted list. -/
theorem insert_eq_orderedInsert : insert = List.orderedInsert (· ≤ ·) := by
  funext place is
  induction is with
  | nil => rfl
  | cons i is ih =>
      rw [insert, List.orderedInsert_cons, ih]

theorem foldr_insert (is : List Nat) : is.foldr insert [] = is.insertionSort (· ≤ ·) := by
  rw [insert_eq_orderedInsert]
  rfl

theorem loop_of_pairwise_lt {i : Nat} {is acc : List Nat} (h : (i :: is).Pairwise (· < ·)) :
    List.eraseRepsBy.loop (· == ·) i is acc = acc.reverse ++ i :: is := by
  induction is generalizing i acc with
  | nil => simp [List.eraseRepsBy.loop]
  | cons j is ih =>
      obtain ⟨hlt, hrest⟩ := List.pairwise_cons.1 h
      have hne : (i == j) = false := beq_false_of_ne (Nat.ne_of_lt (hlt j List.mem_cons_self))
      rw [List.eraseRepsBy.loop, hne]
      simp [ih hrest]

/-- Places in ascending order have no repetitions to be erased. -/
theorem eraseReps_of_pairwise_lt {is : List Nat} (h : is.Pairwise (· < ·)) : is.eraseReps = is := by
  cases is with
  | nil => rfl
  | cons i is => exact loop_of_pairwise_lt h

/-! ## The places of a path -/

/-- The places for a path are those of the sources that accept it, each once and in order. -/
theorem places_ofSources (sources : List String) (path : String) :
    (ofSources sources).places path =
      (sources.zipIdx.filter fun p => Source.accepts p.1 path).map Prod.snd := by
  -- both parts of the index hold the accepted places between them, and sorting puts them in order
  have hpatterns : ((ofSources sources).patterns.filter fun p => p.1.matches path).map Prod.snd =
      ((sources.zipIdx.filter fun p => Source.accepts p.1 path).filter fun p =>
        Source.isStarred p.1).map Prod.snd := by
    rw [ofSources, patterns_foldl_add, List.nil_append, List.filter_map, List.map_map,
      List.filter_filter, List.filter_filter]
    refine congrArg (List.map Prod.snd) (List.filter_congr fun p _ => ?_)
    by_cases hstar : Source.isStarred p.1 = true
    · simp [hstar, patternOf, Source.matches_source, Source.accepts,
        show '*' ∈ p.1.toList from of_decide_eq_true hstar]
    · simp [hstar]
  have hexact : ((ofSources sources).exact.get? path).getD [] =
      ((sources.zipIdx.filter fun p => Source.accepts p.1 path).filter fun p =>
        !Source.isStarred p.1).map Prod.snd := by
    rw [ofSources, get?_foldl_add, List.filter_filter]
    refine congrArg (List.map Prod.snd) (List.filter_congr fun p _ => ?_)
    by_cases hstar : Source.isStarred p.1 = true
    · simp [hstar]
    · simp [hstar, Source.accepts, show '*' ∉ p.1.toList from fun h => hstar (decide_eq_true h)]
  have hascending : ((sources.zipIdx.filter fun p => Source.accepts p.1 path).map
      Prod.snd).Pairwise (· < ·) := by
    have hall : (sources.zipIdx.map Prod.snd).Pairwise (· < ·) := by
      rw [List.zipIdx_map_snd]
      exact List.pairwise_lt_range'
    exact hall.sublist (List.filter_sublist.map Prod.snd)
  rw [places, hpatterns, hexact, ← List.map_append]
  generalize sources.zipIdx.filter (fun p => Source.accepts p.1 path) = ps at hascending ⊢
  have hperm : ((ps.filter fun p => !Source.isStarred p.1) ++
      ps.filter fun p => Source.isStarred p.1).Perm ps :=
    List.perm_append_comm.trans (List.filter_append_perm _ ps)
  have hsorted : (((ps.filter fun p => !Source.isStarred p.1) ++
      ps.filter fun p => Source.isStarred p.1).map Prod.snd).foldr insert [] = ps.map Prod.snd := by
    rw [foldr_insert]
    exact List.Perm.eq_of_pairwise (fun _ _ _ _ => Nat.le_antisymm)
      (List.pairwise_insertionSort _ _) (hascending.imp Nat.le_of_lt)
      ((List.perm_insertionSort _ _).trans (hperm.map _))
  simp only [hsorted, eraseReps_of_pairwise_lt hascending]

end Index

/-- The rules that listen to a path are those that a scan of all rules finds, in their order. -/
theorem Morph.listeners_eq (m : Morph) (path : String) :
    m.listeners path = m.pipes.zipIdx.filter fun p => Source.accepts p.1.source path := by
  have hat : ∀ p ∈ m.pipes.zipIdx.filter fun p => Source.accepts p.1.source path,
      (m.pipes[p.2]?.map fun q => (q, p.2)) = some p := by
    intro p hp
    rw [List.mem_zipIdx_iff_getElem?.1 (List.mem_filter.1 hp).1]
    rfl
  calc m.listeners path
      = (m.pipes.zipIdx.filter fun p => Source.accepts p.1.source path).filterMap fun p =>
          m.pipes[p.2]?.map fun q => (q, p.2) := by
        rw [listeners, index, Index.places_ofSources, List.zipIdx_map, List.filter_map,
          List.map_map, List.filterMap_map]
        rfl
    _ = (m.pipes.zipIdx.filter fun p => Source.accepts p.1.source path).filterMap some :=
        List.filterMap_congr hat
    _ = m.pipes.zipIdx.filter fun p => Source.accepts p.1.source path := List.filterMap_some

/-! ## Running the rules one after the other -/

/-- A rule with a source listens to a path: the source is the path or, with stars in it, spells the
whole of it. -/
def Source.Listens (source path : String) : Prop :=
  if '*' ∈ source.toList then Source.Spells source.toList path.toList else source = path

/-- The test for whether a source accepts a path says whether it listens. -/
theorem Source.accepts_iff {source path : String} :
    Source.accepts source path = true ↔ Source.Listens source path := by
  unfold Source.accepts Source.Listens
  split
  · exact Source.fits_iff
  · exact beq_iff_eq

instance (source path : String) : Decidable (Source.Listens source path) :=
  decidable_of_iff _ Source.accepts_iff

namespace Morph

/-- Go through all rules in their order and hand a value to those that listen to a path. -/
def scan (m : Morph) (emit : String → String → State → Outcome State) (path value : String) :
    State → Outcome State :=
  Outcome.each (fun p s => if Source.Listens p.1.source path then m.runPipe emit value p s
    else .quiet s) m.pipes.zipIdx

/-- The program of a script has a pipe for each rule, those of a collector in the order of its
inputs.  The pipes that are looked up for a path are those that listen to it, each once and in their
order, and what a program does with a value is to run them in a scan of all. -/
theorem dispatch_eq_scan {s : Script} {m : Morph} (h : ofScript s = .ok m) :
    List.Forall₂ (fun w p => PipeRead s w.1 w.2 p) (wires 0 s.rules) m.pipes ∧
      ∀ path, m.listeners path =
          m.pipes.zipIdx.filter (fun p => Source.Listens p.1.source path) ∧
        ∀ levels value (st : State), m.dispatch (levels + 1) path value st =
          m.scan (emitTo (m.dispatch levels)) path value st := by
  refine ⟨(ofScript_read h).1, fun path => ?_⟩
  have hlisteners : m.listeners path =
      m.pipes.zipIdx.filter (fun p => Source.Listens p.1.source path) := by
    rw [listeners_eq]
    refine List.filter_congr fun p _ => ?_
    rw [Bool.eq_iff_iff, decide_eq_true_iff]
    exact Source.accepts_iff
  refine ⟨hlisteners, fun levels value st => ?_⟩
  rw [dispatch, hlisteners, Outcome.each_filter]
  simp only [decide_eq_true_eq]
  rfl

/-- A script whose sources have stars, characters with a meaning in regular expressions, and each
other's paths. -/
def mixedScript : Script where
  name := "mixed"
  vars := .empty
  rules :=
    [.data ⟨"a+b", none, none, []⟩, .data ⟨"(a*)", none, none, []⟩,
      .collect ⟨"concat", "c", .empty,
        [⟨"*b", some "x", none, []⟩, ⟨"a+b", some "y", none, []⟩, ⟨"a+b*", some "z", none, []⟩]⟩,
      .data ⟨"a\\*", none, none, []⟩, .data ⟨"a+b", none, none, []⟩]
  maps := .empty
  filters := .empty

/-- A script whose sources have stars and characters with a meaning: places come in the order of the
rules. -/
theorem dispatch_eq_scan_mixed : ∃ m, ofScript mixedScript = .ok m ∧
    (m.listeners "a+b").map Prod.snd = [0, 2, 3, 4, 6] ∧
    (m.listeners "a\\b").map Prod.snd = [2, 5] ∧
    ∀ levels value (st : State), m.dispatch (levels + 1) "a+b" value st =
      m.scan (emitTo (m.dispatch levels)) "a+b" value st := by
  have hrun : ((ofScript mixedScript).toOption.map fun m =>
      ((m.listeners "a+b").map Prod.snd, (m.listeners "a\\b").map Prod.snd)) =
        some ([0, 2, 3, 4, 6], [2, 5]) := by
    decide +kernel
  obtain ⟨m, hm, hplaces⟩ := toOption_map_eq_some.1 hrun
  obtain ⟨hplus, hslash⟩ := Prod.mk.inj hplaces
  exact ⟨m, hm, hplus, hslash, ((dispatch_eq_scan hm).2 "a+b").2⟩

end Morph

end Recast
