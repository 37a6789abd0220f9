import Mathlib.Data.List.Pairwise
import Rungs.Proofs.IoTable
import Rungs.Proofs.Operands

/-! Generated programs conform. Where allocations do not overlap and nothing foreign lies in one of
them, a program without a critical diagnostic has no violation (`violations_generated`). -/

namespace Rungs

/-! ## Violations -/

namespace Snapshot

variable {s : Snapshot}

theorem holds_of_violation {id : UInt32} {x : String} {number : UInt32} {a : Allocation}
    {v : Violation} (h : s.violation? id x number a = some v) :
    a.Holds number.toNat ∧ number.toNat - a.start.toNat ∉ s.allowedOffsets a := by
  unfold violation? at h
  dsimp only at h
  split at h
  next outside =>
    obtain ⟨above, covered, forbidden⟩ := outside
    rw [UInt32.le_iff_toNat_le] at above
    simp only [Allocation.covers, decide_eq_true_eq] at covered
    exact ⟨⟨above, by omega⟩, forbidden⟩
  next => cases h

theorem allocated_of_mem_operandViolations {id : UInt32} {x : String} {v : Violation}
    (h : v ∈ s.operandViolations id x) : ∃ label number, Device.split? x = some (label, number) ∧
      ∃ a ∈ s.allocations, a.label = label ∧ a.Holds number.toNat ∧
        number.toNat - a.start.toNat ∉ s.allowedOffsets a := by
  unfold operandViolations at h
  split at h
  next => cases h
  next label number eq =>
    obtain ⟨a, mem, found⟩ := List.mem_filterMap.mp h
    obtain ⟨listed, same⟩ := List.mem_filter.mp mem
    exact ⟨label, number, eq, a, listed, beq_iff_eq.mp same, holds_of_violation found⟩

theorem operandViolations_of_not_allocated {id : UInt32} {x : String} (h : ¬s.Allocated x) :
    s.operandViolations id x = [] := by
  refine List.eq_nil_iff_forall_not_mem.mpr fun v mem => h ?_
  obtain ⟨label, number, eq, a, listed, same, holds, _⟩ := allocated_of_mem_operandViolations mem
  exact ⟨label, number, eq, a, listed, same, holds⟩

/-- The allocation that holds the number of a role's bit is the role's own, and there the bit is
allowed. -/
theorem operandViolations_of_roleBit (separated : s.Separated) {id : UInt32} {x : String}
    (h : s.RoleBit x) : s.operandViolations id x = [] := by
  obtain ⟨a, mem, offset, allowed, covered, fits, rfl⟩ := h
  refine List.eq_nil_iff_forall_not_mem.mpr fun v found => ?_
  obtain ⟨label, number, eq, b, listed, same, holds, forbidden⟩ :=
    allocated_of_mem_operandViolations found
  rw [Allocation.device, Device.split?_numbered (separated.label a mem), if_pos fits] at eq
  cases eq
  have value : (UInt32.ofNat (a.start.toNat + offset)).toNat = a.start.toNat + offset :=
    UInt32.toNat_ofNat_of_lt' fits
  rw [value] at holds forbidden
  simp only [Allocation.covers, decide_eq_true_eq] at covered
  by_cases own : a = b
  · rw [← own, Nat.add_sub_cancel_left] at forbidden
    exact forbidden allowed
  · have apart := separated.apart.forall mem listed own
    exact apart same.symm (a.start.toNat + offset) ⟨⟨by omega, by omega⟩, holds⟩

/-- A device under another label than all allocations lies in none of them. -/
theorem not_allocated_of_label {x : String}
    (h : ∀ a ∈ s.allocations, (Device.split? x).map Prod.fst ≠ some a.label) :
    ¬s.Allocated x := by
  rintro ⟨label, number, eq, a, mem, same, _⟩
  refine h a mem ?_
  rw [eq, same]
  rfl

end Snapshot

/-- Where ids are unique, allocations are apart and no foreign operand lies in an allocation, a
program without a critical diagnostic has no violation: every operand of its rows is foreign, or
the bit of an allocation for a role of its owner's class. -/
theorem violations_generated {σ : Type} (v : Service σ) (s : Snapshot) (initial : σ)
    (distinct : s.Distinct) (separated : s.Separated)
    (foreign : ∀ row ∈ (v.generate s initial).1.program.rows, ∀ x ∈ row.operands,
      (v.context s).Foreign initial x → ¬s.Allocated x)
    (accepted : hasCritical (v.generate s initial).1.diagnostics = false) :
    s.violations (v.generate s initial).1.program = [] ∧
      ∀ row ∈ (v.generate s initial).1.program.rows, ∀ x ∈ row.operands,
        (v.context s).Foreign initial x ∨ s.RoleBit x := by
  have complete := v.complete_of_not_critical s initial accepted
  have known : ∀ row ∈ (v.generate s initial).1.program.rows, ∀ x ∈ row.operands,
      (v.context s).Foreign initial x ∨ s.RoleBit x := by
    intro row mem x operand
    obtain ⟨r, origin, plain, inside, operands, _⟩ :=
      Service.origin_of_mem_rows ((v.context s).preserves_reached initial) .start mem
    rw [← operands] at operand
    exact Context.known_of_origin complete distinct origin inside operand
  refine ⟨?_, known⟩
  rw [Snapshot.violations, List.flatMap_eq_nil_iff]
  intro row mem
  rw [List.flatMap_eq_nil_iff]
  intro x operand
  rcases known row mem x operand with outside | bit
  · exact Snapshot.operandViolations_of_not_allocated (foreign row mem x operand outside)
  · exact Snapshot.operandViolations_of_roleBit separated bit

/-- A double valve that one operation drives to its go side, as the one step of a process. -/
def Snapshot.oneStroke : Snapshot where
  cylinders := [{ id := 1, number := "CY1", driveCode := 2 }]
  operations :=
    [{ id := 1, cylinderId := 1, categoryCode := 1, goBack := some "G", start := some "XS",
       finish := some "XE" }]
  processes := [{ id := 1, categoryCode := 1 }]
  details := [{ id := 1, processId := 1, operationId := some 1 }]
  points :=
    [{ id := 1, name := "XS", address := "X0" }, { id := 2, name := "XE", address := "X1" },
     { id := 3, name := "G", address := "Y0", isOutput := true },
     { id := 4, name := "B", address := "Y1", isOutput := true }]
  allocations :=
    [⟨.operation, 1, "L", 0, 20⟩, ⟨.cylinder, 1, "L", 20, 10⟩, ⟨.process, 1, "L", 30, 3⟩,
     ⟨.detail, 1, "L", 33, 3⟩]

namespace Snapshot.OneStroke

/-- The generation of `oneStroke` with its own points and without conditions. -/
def service : Service (List Choice) := .ofTables { points := oneStroke.points } [] {}

theorem distinct : oneStroke.Distinct := ⟨by decide, by decide, by decide⟩

theorem labels : ∀ a ∈ oneStroke.allocations, a.label = "L" := by simp [oneStroke]

theorem separated : oneStroke.Separated := by
  refine ⟨?_, ?_⟩
  · intro a mem
    rw [labels a mem]
    exact ⟨by simp, by simp⟩
  · have ranges : oneStroke.allocations.Pairwise fun a b =>
        a.start.toNat + a.count.toNat ≤ b.start.toNat := by decide
    refine ranges.imp fun before label number both => ?_
    obtain ⟨⟨_, below⟩, ⟨above, _⟩⟩ := both
    omega

theorem foreign {x : String} (h : (service.context oneStroke).Foreign [] x) :
    ¬oneStroke.Allocated x := by
  have listed : x ∈ service.settings.signals ++ ["X0", "X1", "Y0", "Y1", "K0"] := by
    cases h with
    | signal mem => exact List.mem_append_left _ mem
    | pointer mem number =>
      rw [List.mem_singleton.mp mem] at number
      cases number
    | manual mem => cases mem
    | address answer =>
      have wired : ∀ p ∈ oneStroke.points, p.effectiveAddress ∈
          service.settings.signals ++ ["X0", "X1", "Y0", "Y1", "K0"] := by decide
      obtain ⟨p, mem, rfl⟩ := IoTable.wires_of_answers _ answer
      exact wired p mem
    | timer mem => cases mem
    | reference mem named reference =>
      have symbols : ∀ o ∈ oneStroke.operations, ∀ name ∈ o.sensorNames,
          Device.isTimerReference (Context.sensorBase name) = false := by decide
      rw [symbols _ mem _ named] at reference
      cases reference
    | speed mem => cases mem
    | nextWord mem => cases mem
    | constant quoted =>
      cases quoted with
      | zero => decide
      | preset mem => cases mem
      | value mem inside =>
        have silent : ∀ o ∈ oneStroke.operations, o.values = [] := by decide
        rw [silent _ mem] at inside
        cases inside
  have others : ∀ y ∈ service.settings.signals ++ ["X0", "X1", "Y0", "Y1", "K0"],
      (Device.split? y).map Prod.fst ≠ some "L" := by decide
  refine not_allocated_of_label fun a mem => ?_
  rw [labels a mem]
  exact others x listed

end Snapshot.OneStroke

theorem violations_oneStroke :
    Snapshot.oneStroke.violations (Snapshot.oneStroke.generate {}).program = [] ∧
      ∀ row ∈ (Snapshot.oneStroke.generate {}).program.rows, ∀ x ∈ row.operands,
        (Snapshot.OneStroke.service.context Snapshot.oneStroke).Foreign [] x ∨
          Snapshot.oneStroke.RoleBit x :=
  violations_generated Snapshot.OneStroke.service Snapshot.oneStroke [] Snapshot.OneStroke.distinct
    Snapshot.OneStroke.separated (fun _ _ _ _ => Snapshot.OneStroke.foreign) (by decide +kernel)

end Rungs
