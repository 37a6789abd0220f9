import Rungs.Proofs.Independence
import Mathlib.Data.List.Induction

/-! A table of points in a sequence of calls, against a table without memory. Where several points fit
a request, the selector is asked at the first call for it and never again. What it picked then is the
answer of every later call; with a selector that looks at the request and the candidates only, no
answer depends on the calls before it (`IoTable.resolve_refines`). -/

namespace Rungs

/-- A call of a resolver: for one name, or for all names that are a pattern and a number. -/
inductive Call where
  | single (r : Request)
  | range (pattern scope : String) (recordId : Int32)
deriving DecidableEq, Repr

namespace Resolver

variable {σ : Type} (v : Resolver σ)

/-- The memory that a call leaves. -/
def afterCall (m : σ) : Call → σ
  | .single r => (v.resolve r m).2
  | .range pattern scope id => (v.range pattern scope id m).2

/-- The memory that calls leave, one after the other. -/
def after (m : σ) (calls : List Call) : σ := calls.foldl v.afterCall m

theorem after_append (m : σ) (calls later : List Call) :
    v.after m (calls ++ later) = v.after (v.after m calls) later := List.foldl_append

theorem reachable_after (m : σ) (calls : List Call) : v.Reachable m (v.after m calls) := by
  induction calls using List.reverseRecOn with
  | nil => exact .start
  | append_singleton calls call ih =>
    rw [after_append]
    cases call with
    | single r => exact .resolve r ih
    | range pattern scope id => exact .range pattern scope id ih

end Resolver

namespace IoTable

variable (t : IoTable)

/-! ## The table without memory -/

/-- A point that a request asks for: of its name and direction, and in its scope, or shared if the
scope has no such point. -/
def Offers (r : Request) (p : IoPoint) : Prop :=
  p.name = r.name ∧ p.isOutput = r.isOutput ∧
    (p.scope = r.scope ∨ Text.isBlankText p.scope = true ∧
      ∀ q ∈ t.points, q.name = r.name → q.isOutput = r.isOutput → q.scope ≠ r.scope)

instance (r : Request) : DecidablePred (t.Offers r) := fun _ =>
  inferInstanceAs (Decidable (_ ∧ _ ∧ (_ ∨ _ ∧ ∀ _ ∈ _, _ → _ → _)))

/-- The points that a request asks for, as the table lists them. -/
def offered (r : Request) : List IoPoint := t.points.filter fun p => t.Offers r p

/-- The answer of a table that remembers nothing. -/
def lookup (r : Request) : Option String :=
  match t.offered r with
  | [] => none
  | [only] => some only.effectiveAddress
  | several => (t.selector [] r several).map fun p => p.val.effectiveAddress

theorem candidates_eq_offered (r : Request) : t.candidates r = t.offered r := by
  unfold candidates within offered
  dsimp only
  split
  next none =>
    rw [List.isEmpty_iff, List.filter_eq_nil_iff] at none
    refine List.filter_congr fun p listed => ?_
    have away : ∀ q ∈ t.points, q.name = r.name → q.isOutput = r.isOutput → q.scope ≠ r.scope := by
      intro q mem name direction scope
      exact none q mem (by simp [name, direction, scope])
    have elsewhere : p.name = r.name → p.isOutput = r.isOutput → p.scope ≠ r.scope := away p listed
    rw [Bool.eq_iff_iff, decide_eq_true_iff, Offers]
    simp only [Bool.and_eq_true, beq_iff_eq]
    constructor
    · rintro ⟨blank, name, direction⟩
      exact ⟨name, direction, .inr ⟨blank, away⟩⟩
    · rintro ⟨name, direction, here | ⟨blank, -⟩⟩
      · exact absurd here (elsewhere name direction)
      · exact ⟨blank, name, direction⟩
  next some =>
    refine List.filter_congr fun p _ => ?_
    have inside : ∃ q ∈ t.points, q.scope = r.scope ∧ q.name = r.name ∧ q.isOutput = r.isOutput := by
      simpa [List.isEmpty_iff, List.filter_eq_nil_iff] using some
    obtain ⟨q, listed, scope, name, direction⟩ := inside
    rw [Bool.eq_iff_iff, decide_eq_true_iff, Offers]
    simp only [Bool.and_eq_true, beq_iff_eq]
    constructor
    · rintro ⟨here, name, direction⟩
      exact ⟨name, direction, .inl here⟩
    · rintro ⟨name', direction', here | ⟨-, away⟩⟩
      · exact ⟨here, name', direction'⟩
      · exact absurd scope (away q listed name direction)

variable {t} {r : Request}

/-- Without a choice to make, the table needs no memory. -/
theorem resolve_of_few (few : (t.offered r).length < 2) (memory : List Choice) :
    t.resolve r memory = (t.lookup r, memory) := by
  have cases : t.offered r = [] ∨ ∃ only, t.offered r = [only] :=
    match t.offered r, few with
    | [], _ => .inl rfl
    | [only], _ => .inr ⟨only, rfl⟩
  rw [resolve, lookup, candidates_eq_offered]
  rcases cases with absent | ⟨only, one⟩
  · rw [absent]
  · rw [one]

theorem resolve_of_several (several : 2 ≤ (t.offered r).length) (memory : List Choice) :
    t.resolve r memory =
      match remembered? memory r with
      | some choice => (choice.address, memory)
      | none => (t.pick memory r, memory ++ [⟨r, t.offered r, t.pick memory r⟩]) := by
  rw [← candidates_eq_offered] at several ⊢
  unfold resolve
  split
  next none => simp [none] at several
  next one => simp [one] at several
  next => rfl

/-- Without memory the selector is asked each time. -/
theorem resolve_fresh (r : Request) : (t.resolve r []).1 = t.lookup r := by
  by_cases several : 2 ≤ (t.offered r).length
  · have answer : (t.resolve r []).1 = t.pick [] r := by
      rw [resolve_of_several several]
      rfl
    rw [answer, pick, lookup, candidates_eq_offered]
    split
    next none => simp [none] at several
    next one => simp [one] at several
    next => rfl
  · rw [resolve_of_few (by omega)]

/-! ## The choices of a sequence of calls -/

/-- A call goes on record, with the points that it asked for, if there are several and no choice
between them was made. -/
theorem resolve_record (r : Request) (memory : List Choice) :
    (t.resolve r memory).2 = memory ++
      if 2 ≤ (t.offered r).length ∧ remembered? memory r = none then
        [⟨r, t.offered r, (t.resolve r memory).1⟩]
      else [] := by
  by_cases several : 2 ≤ (t.offered r).length
  · rw [resolve_of_several several]
    cases found : remembered? memory r with
    | some choice => simp
    | none => simp [several]
  · rw [resolve_of_few (by omega)]
    simp [several]

theorem remembered?_eq_none_iff {memory : List Choice} :
    remembered? memory r = none ↔ memory.countP (·.request == r) = 0 := by
  simp [remembered?, List.countP_eq_zero]

variable (t)

theorem after_single (calls : List Call) (r : Request) :
    t.resolver.after [] (calls ++ [.single r]) =
      (t.resolve r (t.resolver.after [] calls)).2 := by
  rw [Resolver.after_append]
  rfl

theorem after_range (calls : List Call) (pattern scope : String) (id : Int32) :
    t.resolver.after [] (calls ++ [.range pattern scope id]) = t.resolver.after [] calls := by
  rw [Resolver.after_append]
  rfl

/-- What is on record stays on record. -/
theorem prefix_after (memory : List Choice) (calls : List Call) :
    memory <+: t.resolver.after memory calls := by
  induction calls generalizing memory with
  | nil => exact List.prefix_rfl
  | cons call calls ih =>
    cases call with
    | single r => exact (t.prefix_resolve r memory).trans (ih (t.resolve r memory).2)
    | range pattern scope id => exact ih memory

/-- A request is on record once if it was made and there were several points to choose from. -/
theorem countP_after (calls : List Call) (r : Request) :
    (t.resolver.after [] calls).countP (·.request == r) =
      if .single r ∈ calls ∧ 2 ≤ (t.offered r).length then 1 else 0 := by
  induction calls using List.reverseRecOn with
  | nil => simp [Resolver.after]
  | append_singleton calls call ih =>
    cases call with
    | range pattern scope id => simpa [after_range] using ih
    | single q =>
      rw [after_single, resolve_record, List.countP_append, ih]
      by_cases same : q = r
      · subst same
        simp only [remembered?_eq_none_iff, ih]
        by_cases several : 2 ≤ (t.offered q).length
        · by_cases before : Call.single q ∈ calls <;> simp [several, before]
        · simp [several]
      · have others : ∀ new : List Choice, (∀ choice ∈ new, choice.request = q) →
            new.countP (·.request == r) = 0 := fun new all =>
          List.countP_eq_zero.mpr fun choice mem => by simp [all choice mem, same]
        have away : r ≠ q := fun eq => same eq.symm
        rw [others _ (by split <;> simp)]
        simp [away]

/-- A table that remembers answers as one that does not. Several points for a request are a question
to the selector, put once, at the first call for them, and with the points in the order of the table;
nothing else is one. Whatever the selector answers the first time, a later call is answered the same,
and if the selector looks at the request and the points only, this is the answer without memory. -/
theorem resolve_refines (calls : List Call) (r : Request) :
    let memory := t.resolver.after [] calls
    let answer := (t.resolver.resolve r memory).1
    let asked := t.resolver.after [] (calls ++ [.single r])
    (t.selector.Stateless → answer = t.lookup r) ∧
      (asked = memory ++
        if 2 ≤ (t.offered r).length ∧ .single r ∉ calls then [⟨r, t.offered r, answer⟩] else []) ∧
      (∀ pattern scope id,
        t.resolver.after [] (calls ++ [.range pattern scope id]) = memory) ∧
      memory.countP (·.request == r) =
        (if .single r ∈ calls ∧ 2 ≤ (t.offered r).length then 1 else 0) ∧
      ∀ later, (t.resolver.resolve r (t.resolver.after asked later)).1 = answer := by
  intro memory answer asked
  have record : asked = (t.resolve r memory).2 := t.after_single calls r
  refine ⟨fun stateless => ?_, ?_, t.after_range calls, t.countP_after calls r, fun later => ?_⟩
  · have settled : t.Settled memory :=
      settled_of_reachable stateless (t.resolver.reachable_after [] calls)
    rw [← resolve_fresh]
    exact (settled.resolve stateless r).1
  · have kept : (t.resolve r memory).1 = answer := rfl
    have fresh : remembered? memory r = none ↔
        ¬(.single r ∈ calls ∧ 2 ≤ (t.offered r).length) := by
      rw [remembered?_eq_none_iff, t.countP_after calls r]
      simp
    rw [record, resolve_record, kept]
    simp only [fresh]
    by_cases several : 2 ≤ (t.offered r).length <;> simp [several]
  · have grown : (t.resolve r memory).2 <+: t.resolver.after asked later := by
      rw [← record]
      exact t.prefix_after asked later
    have again : t.resolver.resolve r (t.resolver.after asked later) = _ := t.resolve_again grown
    rw [again]
    rfl

/-- Two points in the scope, two that are shared, and a selector that takes the last one. -/
private def crossing : IoTable where
  points := [⟨1, "G", "Y1", none, true, "CY1"⟩, ⟨2, "B", "Y2", none, true, ""⟩,
    ⟨3, "G", "Y3", some "L3", true, "CY1"⟩, ⟨4, "B", "Y4", none, true, " "⟩,
    ⟨5, "G", "Y5", none, true, ""⟩]
  selector := .last

/-- After a question about other points and a look at the range, the selector is asked for the go side
and its pick is kept. -/
theorem resolve_refines_crossing :
    let calls : List Call := [.single ⟨"B", true, "CY1", 1⟩, .range "G" "CY1" 1]
    let r : Request := ⟨"G", true, "CY1", 1⟩
    let memory := crossing.resolver.after [] calls
    let asked := crossing.resolver.after [] (calls ++ [.single r])
    crossing.selector.Stateless ∧
      (crossing.resolver.resolve r memory).1 = crossing.lookup r ∧
      crossing.lookup r = some "L3" ∧
      asked.map (·.candidates.map (·.id)) = [[2, 4], [1, 3]] ∧
      (crossing.resolver.resolve r (crossing.resolver.after asked calls)).1 = some "L3" := by
  have stateless : crossing.selector.Stateless := fun _ _ _ _ => rfl
  have found : crossing.lookup ⟨"G", true, "CY1", 1⟩ = some "L3" := by decide
  obtain ⟨answered, -, -, -, again⟩ := crossing.resolve_refines
    [.single ⟨"B", true, "CY1", 1⟩, .range "G" "CY1" 1] ⟨"G", true, "CY1", 1⟩
  refine ⟨stateless, answered stateless, found, by decide, ?_⟩
  exact (again _).trans ((answered stateless).trans found)

end IoTable

end Rungs
