import Rungs.Snapshot
import Rungs.Text.Quoted

/-! Findings and diagnostics. A finding is a cause, worded by `Finding.message` alone; a diagnostic
is a finding put on record for the entity it concerns. A critical diagnostic blocks the export of
the whole program. -/

namespace Rungs

/-- What an output point of a cylinder is used for. -/
inductive OutputUse where
  | valve | goCoil | backCoil | forward | reverse | servoStart | brake
deriving DecidableEq, Repr, Inhabited

/-- What the generated program lacks without the output. -/
def OutputUse.consequence : OutputUse → String
  | valve => "valve block skipped"
  | goCoil => "go coil will never energise"
  | backCoil => "back coil will never energise"
  | forward => "forward output skipped"
  | reverse => "reverse output skipped"
  | servoStart => "servo start output skipped"
  | brake => "brake output skipped"

inductive Finding where
  | noAllocation
  | allocationTooShort (allocation : Allocation) (needed : Nat)
  | allocationOverflows (allocation : Allocation) (needed : Nat)
  | unknownOperationCategory (code : UInt32)
  | unknownDriveCode (code : UInt32)
  | unknownProcessCategory (code : UInt32)
  | unknownCylinder (id : Int32)
  | unknownSensor (sensor fallback : String)
  | noStartSensor
  | noFinishSensor
  | noSpeedSensor (step : Step)
  | noSpeedTimer (step : Step)
  | severalSpeedTimers (count : Nat) (step : Step)
  | severalDelayTimers (count : Nat) (category : TimerCategory)
  | severalDeepSeatTimers (count : Nat)
  | unallocatedDetail (id : Int32)
  | unknownDirection (operationId : Int32) (goBack : String)
  | noManualControl (fallback : String)
  | unknownOutput (output cylinder : String) (use : OutputUse)
  | noSpeedDevice
  | noStepSpeed (operationId : Int32) (step : Step)
  | noWordDevice (device : String)
  | noPosition (operationId : Int32)
  | noDecelerationTimer
  | severalDecelerationTimers (count : Nat)
  | noInterlockTimer
  | severalInterlockTimers (count : Nat)
  | unknownProcess (id : Int32)
  | unallocatedProcess (id : Int32)
  | unknownOperation (id : Int32)
  | remark (text : String)
deriving DecidableEq, Repr, Inhabited

/-- The first device of an allocation, as far as it is named in a message. -/
def Allocation.origin (a : Allocation) : String := a.device 0

def Finding.message : Finding → String
  | noAllocation => "no device allocation for this record"
  | allocationTooShort a needed =>
    s!"device allocation {a.origin} has {a.count.toNat} bits, template needs {needed}"
  | allocationOverflows a needed =>
    s!"device allocation {a.origin} overflows the address range for {needed} bits"
  | unknownOperationCategory code => s!"unknown operation categoryId {code.toNat}"
  | unknownDriveCode code => s!"unknown driveSubId {code.toNat}"
  | unknownProcessCategory code => s!"unknown process categoryId {code.toNat}"
  | unknownCylinder id =>
    s!"cylinder {id.toInt} not found, sensors resolve against shared IO only"
  | unknownSensor sensor fallback => s!"sensor {sensor} not found in IO table, using {fallback}"
  | noStartSensor => "start sensor is not configured"
  | noFinishSensor => "finish sensor is not configured"
  | noSpeedSensor step => s!"speed change sensor {stepNumber step} is not configured"
  | noSpeedTimer step => s!"speed change timer {stepNumber step} is not configured"
  | severalSpeedTimers count step =>
    s!"{count} speed change timers configured for step {stepNumber step}, step skipped"
  | severalDelayTimers count category =>
    s!"{count} {category.name} timers configured, delay skipped"
  | severalDeepSeatTimers count => s!"{count} DeepSeat timers configured, deep seat skipped"
  | unallocatedDetail id => s!"process detail {id.toInt} has no device allocation, branch skipped"
  | unknownDirection id goBack =>
    s!"operation {id.toInt} has goBack {Text.quoted goBack}, expected G or B; ignored"
  | noManualControl fallback => s!"manual control signals not configured, using {fallback}"
  | unknownOutput output cylinder use =>
    s!"output {output} not found for {cylinder}, {use.consequence}"
  | noSpeedDevice => "speed device is not configured"
  | noStepSpeed id step => s!"operation {id.toInt} has no speed value for step {stepNumber step}"
  | noWordDevice device =>
    s!"speed device {device} is not a word device, servo speeds skipped"
  | noPosition id => s!"positioning operation {id.toInt} has no target position"
  | noDecelerationTimer => "forced deceleration timer not configured, deceleration skipped"
  | severalDecelerationTimers count =>
    s!"{count} forced deceleration timers configured, deceleration skipped"
  | noInterlockTimer => "interlock wait timer not configured, running without wait"
  | severalInterlockTimers count =>
    s!"{count} interlock wait timers configured, running without wait"
  | unknownProcess id => s!"owning process {id.toInt} not found"
  | unallocatedProcess id => s!"owning process {id.toInt} has no device allocation"
  | unknownOperation id => s!"operation {id.toInt} not found, completion not gated"
  | remark text => text

structure Diagnostic where
  kind : EntityKind
  recordId : Int32
  recordName : String
  message : String
  isCritical : Bool
deriving DecidableEq, Repr, Inhabited

def hasCritical (ds : List Diagnostic) : Bool := ds.any (·.isCritical)

def criticalCount (ds : List Diagnostic) : Nat := ds.countP (·.isCritical)

theorem hasCritical_iff {ds : List Diagnostic} : hasCritical ds = true ↔ 0 < criticalCount ds := by
  simp [hasCritical, criticalCount, List.countP_pos_iff]

/-- The entity that findings are put on record for. -/
structure Owner where
  kind : EntityKind
  recordId : Int32
  name : String
deriving DecidableEq, Repr, Inhabited

namespace Owner

def diagnostic (o : Owner) (isCritical : Bool) (f : Finding) : Diagnostic :=
  { kind := o.kind, recordId := o.recordId, recordName := o.name, message := f.message, isCritical }

def warning (o : Owner) : Finding → Diagnostic := o.diagnostic false

def critical (o : Owner) : Finding → Diagnostic := o.diagnostic true

/-- Says that generation for this entity has stopped. -/
def haltText (o : Owner) : String := s!"synthesis halted for {o.kind.name} {o.recordId.toInt}"

end Owner

def Cylinder.owner (c : Cylinder) : Owner := ⟨.cylinder, c.id, c.displayName⟩
def Operation.owner (o : Operation) : Owner := ⟨.operation, o.id, o.name⟩
def Process.owner (p : Process) : Owner := ⟨.process, p.id, p.name⟩
def Detail.owner (d : Detail) : Owner := ⟨.detail, d.id, d.name⟩

end Rungs
