import Rungs.Role
import Rungs.Device
import Rungs.Text.Blank

/-! A project snapshot: everything that one generation reads and never changes. Records are kept in
the order in which the document lists them. -/

namespace Rungs

/-- A block of devices set aside for one entity: `count` numbers from `start` on under a label. -/
structure Allocation where
  kind : EntityKind
  recordId : Int32
  label : String
  start : UInt32
  count : UInt32
deriving DecidableEq, Repr, Inhabited

namespace Allocation

/-- The device at an offset. It is rendered also where the sum leaves 32 bits. -/
def device (a : Allocation) (offset : Nat) : String :=
  Device.numbered a.label (a.start.toNat + offset)

/-- Whether the block's first `bits` numbers and the one after them fit in 32 bits. -/
def addressable (a : Allocation) (bits : Nat) : Bool := a.start.toNat + bits < UInt32.size

def covers (a : Allocation) (offset : Nat) : Bool := offset < a.count.toNat

theorem device_injective (a : Allocation) {i j : Nat} (h : a.device i = a.device j) : i = j := by
  have := Device.numbered_injective h
  omega

end Allocation

structure Cylinder where
  id : Int32
  /-- Shown to people, and the scope in which the cylinder's points are looked up. -/
  number : String
  name : String := ""
  driveCode : UInt32
  sortNumber : Int32 := 0
  /-- With a count of at least two, an output stands for that many numbered points. -/
  pointCount : Option UInt32 := none
deriving DecidableEq, Repr, Inhabited

def Cylinder.displayName (c : Cylinder) : String :=
  if c.name = "" then c.number else c.number ++ c.name

/-- One commanded motion of a cylinder. -/
structure Operation where
  id : Int32
  name : String := ""
  cylinderId : Int32
  categoryCode : UInt32
  /-- `G` for the go side, `B` for the back side. -/
  goBack : Option String := none
  start : Option String := none
  finish : Option String := none
  /-- The sensor that must agree before the motion starts. -/
  control : Option String := none
  sensorCount : Option UInt32 := none
  speedSensors : List String := []
  speeds : List Int32 := []
  startSpeed : Option Int32 := none
  position : Option Int32 := none
  sortNumber : Int32 := 0
deriving DecidableEq, Repr, Inhabited

/-- A macro step of the machine's cycle. -/
structure Process where
  id : Int32
  name : String := ""
  categoryCode : UInt32
  sortNumber : Int32 := 0
  /-- The pointer that the running process jumps to. -/
  blockNumber : Option UInt32 := none
deriving DecidableEq, Repr, Inhabited

/-- A step inside a process, which may carry out an operation. -/
structure Detail where
  id : Int32
  name : String := ""
  processId : Int32
  operationId : Option Int32 := none
  sortNumber : Int32 := 0
deriving DecidableEq, Repr, Inhabited

/-- What a timer is for. -/
inductive TimerCategory where
  | startWait | stable | deepSeat | forcedDeceleration
  | speedChange (step : Step)
deriving DecidableEq, Repr, Inhabited

namespace TimerCategory

def id : TimerCategory → UInt32
  | startWait => 1 | stable => 2 | deepSeat => 3 | forcedDeceleration => 4
  | speedChange s => UInt32.ofNat (5 + s.val)

def name : TimerCategory → String
  | startWait => "StartWait" | stable => "Stable" | deepSeat => "DeepSeat"
  | forcedDeceleration => "ForcedDeceleration"
  | speedChange s => "SpeedChange" ++ toString (stepNumber s)

def all : List TimerCategory :=
  [startWait, stable, deepSeat, forcedDeceleration] ++ (List.finRange 4).map speedChange

def ofId? (n : UInt32) : Option TimerCategory := all.find? (·.id == n)

end TimerCategory

structure Timer where
  id : Int32
  name : String := ""
  categoryId : UInt32
  kind : EntityKind
  recordIds : List Int32 := []
  number : UInt32
  preset : UInt32
deriving DecidableEq, Repr, Inhabited

def Timer.ownedBy (t : Timer) (kind : EntityKind) (recordId : Int32) : Bool :=
  t.kind == kind && t.recordIds.contains recordId

/-- A physical input or output. -/
structure IoPoint where
  id : Int32
  name : String
  address : String
  linkDevice : Option String := none
  isOutput : Bool := false
  /-- The number of the cylinder the point belongs to; a blank scope is shared by all. -/
  scope : String := ""
deriving DecidableEq, Repr, Inhabited

/-- A link device that is not blank stands in for the address. -/
def IoPoint.effectiveAddress (p : IoPoint) : String :=
  match p.linkDevice with
  | some link => if Text.isBlankText link then p.address else link
  | none => p.address

structure SpeedDevice where
  cylinderId : Int32
  device : String
deriving DecidableEq, Repr, Inhabited

structure ManualControl where
  cylinderId : Int32
  go : String
  back : String
  enable : String
deriving DecidableEq, Repr, Inhabited

inductive ConditionKind where
  | start | finish
deriving DecidableEq, Repr, Inhabited

namespace ConditionKind

def all : List ConditionKind := [start, finish]

def name : ConditionKind → String
  | start => "Start" | finish => "Finish"

end ConditionKind

/-- The owner's start or finish waits for a detail to complete. -/
structure Condition where
  kind : ConditionKind
  ownerKind : EntityKind
  ownerId : Int32
  detailId : Int32
deriving DecidableEq, Repr, Inhabited

structure Snapshot where
  plcId : Int32 := 0
  cycleId : Int32 := 0
  cylinders : List Cylinder := []
  operations : List Operation := []
  processes : List Process := []
  details : List Detail := []
  timers : List Timer := []
  points : List IoPoint := []
  speedDevices : List SpeedDevice := []
  manualControls : List ManualControl := []
  allocations : List Allocation := []
  conditions : List Condition := []
deriving DecidableEq, Repr, Inhabited

end Rungs
