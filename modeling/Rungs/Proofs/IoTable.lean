import Rungs.IoTable
import Rungs.Proofs.Lookup

/-! What a table of points answers as a resolver, when it starts without memory: addresses of points
that bear the name and direction of the request, and that lie in its scope or, where the scope has no
such point, are shared. A point that was chosen earlier was chosen for the same request. -/

namespace Rungs.IoTable

variable (t : IoTable)

/-- A point of a scope, or a shared point that the scope leaves room for. -/
def InScope (scope : String) (suits : IoPoint → Bool) (p : IoPoint) : Prop :=
  p.scope = scope ∨
    Text.isBlankText p.scope = true ∧ ∀ q ∈ t.points, q.scope = scope → suits q = false

theorem mem_within {scope : String} {suits : IoPoint → Bool} {p : IoPoint}
    (h : p ∈ t.within scope suits) : p ∈ t.points ∧ suits p = true ∧ t.InScope scope suits p := by
  unfold within at h
  dsimp only at h
  split at h
  next none =>
    obtain ⟨listed, fits⟩ := List.mem_filter.mp h
    rw [Bool.and_eq_true] at fits
    refine ⟨listed, fits.2, .inr ⟨fits.1, fun q mem here => ?_⟩⟩
    rw [List.isEmpty_iff, List.filter_eq_nil_iff] at none
    simpa [here] using none q mem
  next =>
    obtain ⟨listed, fits⟩ := List.mem_filter.mp h
    rw [Bool.and_eq_true, beq_iff_eq] at fits
    exact ⟨listed, fits.2, .inl fits.1⟩

theorem mem_range {pattern scope : String} {p : IoPoint} (h : p ∈ t.range pattern scope) :
    p ∈ t.points ∧ (numericSuffix? pattern p.name).isSome = true ∧
      t.InScope scope (fun q => (numericSuffix? pattern q.name).isSome) p := by
  obtain ⟨⟨n, q⟩, mem, rfl⟩ := List.mem_map.mp h
  have listed := (List.mergeSort_perm _ _).mem_iff.mp mem
  obtain ⟨found, inside, eq⟩ := List.mem_filterMap.mp listed
  obtain ⟨_, _, pair⟩ := Option.map_eq_some_iff.mp eq
  cases pair
  exact t.mem_within inside

/-- The device is the address of one of the table's points. -/
def Wires (address : String) : Prop := ∃ p ∈ t.points, p.effectiveAddress = address

/-- The device is the address of a point that a request asks for. A shared point counts only if the
scope of the request has none of that name and direction. -/
def Supplies (r : Request) (address : String) : Prop :=
  ∃ p ∈ t.points, p.effectiveAddress = address ∧ p.name = r.name ∧ p.isOutput = r.isOutput ∧
    t.InScope r.scope (fun q => q.name == r.name && q.isOutput == r.isOutput) p

theorem supplies_of_candidate {r : Request} {p : IoPoint} (h : p ∈ t.candidates r) :
    t.Supplies r p.effectiveAddress := by
  obtain ⟨listed, fits, inside⟩ := t.mem_within h
  rw [Bool.and_eq_true, beq_iff_eq, beq_iff_eq] at fits
  exact ⟨p, listed, rfl, fits.1, fits.2, inside⟩

/-- In a numbered family a shared point stands in for one name only if the scope lacks that name. -/
theorem supplies_of_member {r : Request} {pattern : String} {p : IoPoint}
    (h : p ∈ t.range pattern r.scope) (direction : p.isOutput = r.isOutput)
    (name : p.name = r.name) : t.Supplies r p.effectiveAddress := by
  obtain ⟨listed, numbered, inside⟩ := t.mem_range h
  refine ⟨p, listed, rfl, name, direction, inside.imp_right fun ⟨blank, free⟩ => ⟨blank, ?_⟩⟩
  intro q mem here
  by_cases same : q.name = r.name
  · have lacking : (numericSuffix? pattern q.name).isSome = false := free q mem here
    rw [same, ← name, numbered] at lacking
    contradiction
  · simp [same]

theorem request_of_remembered {memory : List Choice} {r : Request} {choice : Choice}
    (h : remembered? memory r = some choice) : choice.request = r := by
  simpa using List.find?_some h

/-- Every choice on record led to a point that its request asks for. -/
def Recorded (memory : List Choice) : Prop :=
  ∀ choice ∈ memory, ∀ address, choice.address = some address → t.Supplies choice.request address

theorem recorded_resolve {memory : List Choice} (h : t.Recorded memory) (r : Request) :
    t.Recorded (t.resolve r memory).2 ∧
      ∀ address, (t.resolve r memory).1 = some address → t.Supplies r address := by
  unfold resolve
  split
  next => exact ⟨h, nofun⟩
  next only eq =>
    refine ⟨h, fun address e => ?_⟩
    rw [← Option.some.inj e]
    exact t.supplies_of_candidate (by rw [eq]; exact List.mem_singleton_self only)
  next =>
    split
    next choice found =>
      exact ⟨h, request_of_remembered found ▸ h choice (List.mem_of_find?_eq_some found)⟩
    next =>
      have picked : ∀ address, ((t.selector memory r (t.candidates r)).map
          fun p => p.val.effectiveAddress) = some address → t.Supplies r address := by
        intro address e
        obtain ⟨p, _, rfl⟩ := Option.map_eq_some_iff.mp e
        exact t.supplies_of_candidate p.property
      refine ⟨fun choice mem address e => ?_, picked⟩
      rcases List.mem_append.mp mem with mem | mem
      · exact h choice mem address e
      · rw [List.mem_singleton.mp mem] at e ⊢
        exact picked address e

theorem recorded_of_reachable {memory : List Choice} (h : t.resolver.Reachable [] memory) :
    t.Recorded memory := by
  induction h with
  | start =>
    intro choice mem
    cases mem
  | resolve r _ ih => exact (t.recorded_resolve ih r).1
  | range _ _ _ _ ih => exact ih

/-- Without a memory of its own the table answers every request with a point that the request asks
for. -/
theorem supplies_of_answers {r : Request} {address : String}
    (h : t.resolver.Answers [] r address) : t.Supplies r address := by
  cases h with
  | single hm eq => exact (t.recorded_resolve (t.recorded_of_reachable hm) r).2 address eq
  | member _ mem direction name => exact t.supplies_of_member mem direction name

theorem wires_of_answers {r : Request} {address : String} (h : t.resolver.Answers [] r address) :
    t.Wires address := by
  obtain ⟨p, listed, same, -⟩ := t.supplies_of_answers h
  exact ⟨p, listed, same⟩

end Rungs.IoTable
