import Rungs.EntityKind

/-! Roles: the named bits of an entity's block and their fixed offsets in it. Two roles of one kind
never share an offset (`OperationRole.offset_injective` and its siblings). -/

namespace Rungs

class Role (ρ : Type) where
  offset : ρ → Nat
  name : ρ → String

/-- One of the four speed change points of an operation, counted from 0. -/
abbrev Step := Fin 4

/-- The number of a step as people count. -/
def stepNumber (s : Step) : Nat := s.val + 1

def stepAt? (index : Nat) : Option Step := if h : index < 4 then some ⟨index, h⟩ else none

inductive OperationRole where
  | resetGate | hold | startLatch | positioningStart | runEnable | startDelay | startConfirmed
  | positioningBusy
  | speedStep (step : Step)
  | finishDetected | stableGate | deepSeat | completion
deriving DecidableEq, Repr, Inhabited

namespace OperationRole

def offset : OperationRole → Nat
  | resetGate => 0 | hold => 1 | startLatch => 2 | positioningStart => 4 | runEnable => 5
  | startDelay => 6 | startConfirmed => 7 | positioningBusy => 8
  | speedStep s => 10 + s.val
  | finishDetected => 16 | stableGate => 17 | deepSeat => 18 | completion => 19

def name : OperationRole → String
  | resetGate => "ResetGate" | hold => "Hold" | startLatch => "StartLatch"
  | positioningStart => "PositioningStart" | runEnable => "RunEnable" | startDelay => "StartDelay"
  | startConfirmed => "StartConfirmed" | positioningBusy => "PositioningBusy"
  | speedStep s => "SpeedStep" ++ toString (stepNumber s)
  | finishDetected => "FinishDetected" | stableGate => "StableGate" | deepSeat => "DeepSeat"
  | completion => "Completion"

instance : Role OperationRole := ⟨offset, name⟩

/-- The bits that every operation block has. -/
def blockBits : Nat := 20

theorem offset_lt_blockBits (r : OperationRole) : r.offset < blockBits := by
  cases r <;> simp only [offset, blockBits] <;> omega

theorem offset_injective {r s : OperationRole} (h : r.offset = s.offset) : r = s := by
  cases r <;> cases s <;> simp only [offset] at h <;>
    first | rfl | exact congrArg speedStep (Fin.ext (by omega)) | omega

end OperationRole

inductive CylinderRole where
  | autoGo | autoBack | manualGo | manualBack | forcedOff | goCommand | backCommand | outputOk
  | retainGo | retainBack | servoStart | brakeRelease | decelerate
deriving DecidableEq, Repr, Inhabited

namespace CylinderRole

def offset : CylinderRole → Nat
  | autoGo => 0 | autoBack => 1 | manualGo => 2 | manualBack => 3 | forcedOff => 4
  | goCommand => 5 | backCommand => 6 | outputOk => 7 | retainGo => 8 | retainBack => 9
  | servoStart => 10 | brakeRelease => 11 | decelerate => 12

def name : CylinderRole → String
  | autoGo => "AutoGo" | autoBack => "AutoBack" | manualGo => "ManualGo"
  | manualBack => "ManualBack" | forcedOff => "ForcedOff" | goCommand => "GoCommand"
  | backCommand => "BackCommand" | outputOk => "OutputOk" | retainGo => "RetainGo"
  | retainBack => "RetainBack" | servoStart => "ServoStart" | brakeRelease => "BrakeRelease"
  | decelerate => "Decelerate"

instance : Role CylinderRole := ⟨offset, name⟩

theorem offset_injective {r s : CylinderRole} (h : r.offset = s.offset) : r = s := by
  cases r <;> cases s <;> first | rfl | exact absurd h (by decide)

end CylinderRole

inductive ProcessRole where
  | start | running | finished
deriving DecidableEq, Repr, Inhabited

namespace ProcessRole

def offset : ProcessRole → Nat
  | start => 0 | running => 1 | finished => 2

def name : ProcessRole → String
  | start => "Start" | running => "Running" | finished => "Finished"

def all : List ProcessRole := [start, running, finished]

instance : Role ProcessRole := ⟨offset, name⟩

theorem offset_injective {r s : ProcessRole} (h : r.offset = s.offset) : r = s := by
  cases r <;> cases s <;> first | rfl | exact absurd h (by decide)

end ProcessRole

inductive DetailRole where
  | start | running | complete
deriving DecidableEq, Repr, Inhabited

namespace DetailRole

def offset : DetailRole → Nat
  | start => 0 | running => 1 | complete => 2

def name : DetailRole → String
  | start => "Start" | running => "Running" | complete => "Complete"

def all : List DetailRole := [start, running, complete]

instance : Role DetailRole := ⟨offset, name⟩

theorem offset_injective {r s : DetailRole} (h : r.offset = s.offset) : r = s := by
  cases r <;> cases s <;> first | rfl | exact absurd h (by decide)

end DetailRole

/-- The length of the shortest block that holds every role of the list. -/
def requiredBits {ρ : Type} [Role ρ] (roles : List ρ) : Nat :=
  roles.foldr (fun r bits => max (Role.offset r + 1) bits) 0

theorem requiredBits_le_iff {ρ : Type} [Role ρ] {roles : List ρ} {bits : Nat} :
    requiredBits roles ≤ bits ↔ ∀ r ∈ roles, Role.offset r < bits := by
  induction roles with
  | nil => simp [requiredBits]
  | cons r roles ih =>
    simp only [requiredBits, List.foldr_cons, List.forall_mem_cons, Nat.max_le] at ih ⊢
    rw [ih, Nat.succ_le_iff]

end Rungs
