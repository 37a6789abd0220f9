import Rungs.Program
import Rungs.Snapshot.Lookup
import Rungs.Template

/-! Conformance: every device of a program that lies in an allocation has to be a role of the entity
that owns the allocation. A device outside all allocations is nobody's and is never reported. -/

namespace Rungs

structure Violation where
  rowId : UInt32
  device : String
  kind : EntityKind
  recordId : Int32
  offset : Nat
deriving DecidableEq, Repr, Inhabited

def roleOffsets {ρ : Type} [Role ρ] (roles : List ρ) : List Nat := roles.map Role.offset

namespace Snapshot

/-- The offsets that an allocation's owner may use: the roles of the class of the first entity with
its id. An owner that is unknown or of unknown class may use none. -/
def allowedOffsets (s : Snapshot) (a : Allocation) : List Nat :=
  match a.kind with
  | .operation =>
    (((s.operations.find? (·.id == a.recordId)).bind fun o =>
      OperationTemplate.ofCode? o.categoryCode).map fun t => roleOffsets t.roles).getD []
  | .cylinder =>
    (((s.cylinders.find? (·.id == a.recordId)).bind fun c =>
      DriveClass.ofCode? c.driveCode).map fun c => roleOffsets c.roles).getD []
  | .process =>
    (((s.processes.find? (·.id == a.recordId)).bind fun p =>
      ProcessTemplate.ofCode? p.categoryCode).map fun t => roleOffsets t.roles).getD []
  | .detail => roleOffsets DetailRole.all

/-- The violation of one allocation by a device of its label, if there is one. -/
def violation? (s : Snapshot) (rowId : UInt32) (device : String) (number : UInt32)
    (a : Allocation) : Option Violation :=
  let offset := number.toNat - a.start.toNat
  if a.start ≤ number ∧ a.covers offset ∧ offset ∉ s.allowedOffsets a then
    some ⟨rowId, device, a.kind, a.recordId, offset⟩
  else none

def operandViolations (s : Snapshot) (rowId : UInt32) (device : String) : List Violation :=
  match Device.split? device with
  | none => []
  | some (label, number) =>
    (s.allocations.filter fun a => a.label == label).filterMap (s.violation? rowId device number)

/-- All violations by row, operand and allocation. -/
def violations (s : Snapshot) (p : Program) : List Violation :=
  p.rows.flatMap fun row => row.operands.flatMap (s.operandViolations row.id)

end Snapshot

end Rungs
