import Rungs.Role

/-! Templates: how the class code of a record selects what is generated for it, and which roles of
its block the result may use. Each dispatch table lists a code at most once, and every operation
role stays inside the operation block (`tablesValid_eq_true`). -/

namespace Rungs

/-- Speed change and positioning carry the number of their speed change points. -/
inductive OperationTemplate where
  | excitation | retention | excitationOff
  | speedChange (steps : Fin 5)
  | positioning (steps : Fin 5)
deriving DecidableEq, Repr, Inhabited

inductive DriveClass where
  | singleValve | doubleValve | motor | flowValve | servo | inverter
deriving DecidableEq, Repr, Inhabited

inductive ProcessTemplate where
  | normal | resetAfter | subProcess | conditionalBranch | interlockWait
deriving DecidableEq, Repr, Inhabited

/-- The entry of a dispatch table for a code. -/
def dispatch? {τ : Type} (table : List (Nat × τ)) (code : UInt32) : Option τ :=
  (table.find? fun entry => entry.1 == code.toNat).map Prod.snd

namespace OperationTemplate

def table : List (Nat × OperationTemplate) :=
  [(1, excitation), (2, retention), (20, retention), (14, excitationOff),
   (3, speedChange 0), (9, speedChange 0), (15, speedChange 0), (27, speedChange 0),
   (4, speedChange 1), (10, speedChange 1), (16, speedChange 1), (28, speedChange 1),
   (5, speedChange 2), (11, speedChange 2), (17, speedChange 2),
   (6, speedChange 3), (12, speedChange 3), (18, speedChange 3),
   (7, speedChange 4), (13, speedChange 4), (19, speedChange 4),
   (31, positioning 0), (32, positioning 1), (33, positioning 2), (34, positioning 3),
   (35, positioning 4)]

def ofCode? (code : UInt32) : Option OperationTemplate := dispatch? table code

def stepCount : OperationTemplate → Nat
  | speedChange n | positioning n => n.val
  | _ => 0

theorem stepCount_le (t : OperationTemplate) : t.stepCount ≤ 4 := by
  cases t <;> simp only [stepCount] <;> omega

/-- The speed change points in order. -/
def steps (t : OperationTemplate) : List Step := (List.finRange 4).take t.stepCount

/-- A drive that changes speed or positions must stop as soon as the end is detected. -/
def stopsAtFinish : OperationTemplate → Bool
  | speedChange _ | positioning _ => true
  | _ => false

def isPositioning : OperationTemplate → Bool
  | positioning _ => true
  | _ => false

def commonRoles : List OperationRole :=
  [.resetGate, .startLatch, .runEnable, .startDelay, .startConfirmed, .finishDetected,
   .stableGate, .deepSeat, .completion]

def roles (t : OperationTemplate) : List OperationRole :=
  commonRoles ++ (if t = retention then [.hold] else []) ++ t.steps.map .speedStep ++
    if t.isPositioning then [.positioningStart, .positioningBusy] else []

def name : OperationTemplate → String
  | excitation => "Excitation" | retention => "Retention" | excitationOff => "ExcitationOff"
  | speedChange n => "SpeedChange(" ++ toString n.val ++ ")"
  | positioning n => "Positioning(" ++ toString n.val ++ ")"

end OperationTemplate

namespace DriveClass

def table : List (Nat × DriveClass) :=
  [(1, singleValve), (4, singleValve), (10, singleValve),
   (2, doubleValve), (3, doubleValve), (5, doubleValve), (6, doubleValve),
   (15, motor), (7, flowValve), (8, flowValve), (9, flowValve), (14, servo), (16, inverter)]

def ofCode? (code : UInt32) : Option DriveClass := dispatch? table code

/-- These drives take their speed from a word device. -/
def requiresSpeedDevice : DriveClass → Bool
  | flowValve | servo | inverter => true
  | _ => false

def commonRoles : List CylinderRole :=
  [.autoGo, .autoBack, .manualGo, .manualBack, .forcedOff, .goCommand, .backCommand, .outputOk]

def roles (c : DriveClass) : List CylinderRole :=
  commonRoles ++ match c with
    | singleValve => [.retainGo]
    | doubleValve | flowValve => [.retainGo, .retainBack]
    | motor => []
    | servo => [.servoStart, .brakeRelease]
    | inverter => [.decelerate]

def name : DriveClass → String
  | singleValve => "SingleValve" | doubleValve => "DoubleValve" | motor => "Motor"
  | flowValve => "FlowValve" | servo => "Servo" | inverter => "Inverter"

end DriveClass

namespace ProcessTemplate

def table : List (Nat × ProcessTemplate) :=
  [(1, normal), (2, resetAfter), (3, subProcess), (4, conditionalBranch), (5, interlockWait)]

def ofCode? (code : UInt32) : Option ProcessTemplate := dispatch? table code

def roles (_ : ProcessTemplate) : List ProcessRole := ProcessRole.all

def name : ProcessTemplate → String
  | normal => "Normal" | resetAfter => "ResetAfter" | subProcess => "SubProcess"
  | conditionalBranch => "ConditionalBranch" | interlockWait => "InterlockWait"

end ProcessTemplate

/-- No code is listed twice. -/
def codesUnique {τ : Type} (table : List (Nat × τ)) : Bool :=
  decide (table.map Prod.fst).Nodup

/-- Codes are unique, and what an operation template uses lies in the operation block. -/
def tablesValid : Bool :=
  codesUnique OperationTemplate.table && codesUnique DriveClass.table &&
    codesUnique ProcessTemplate.table &&
    OperationTemplate.table.all fun entry =>
      entry.2.roles.all fun role => role.offset < OperationRole.blockBits

/-- The tables are checked before anything is generated; nothing is ever refused for them. -/
theorem tablesValid_eq_true : tablesValid = true := by
  simp only [tablesValid, Bool.and_eq_true]
  refine ⟨⟨⟨by decide, by decide⟩, by decide⟩, ?_⟩
  simp [OperationRole.offset_lt_blockBits]

end Rungs
