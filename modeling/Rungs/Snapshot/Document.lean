import Rungs.Snapshot
import Rungs.Document

/-! How snapshots are read from JSON and written to it. -/

namespace Rungs

open Json (RecordOf Decoder)
open Json.RecordOf (required defaulted optional)

namespace Cylinder

def record : RecordOf Cylinder :=
  Cylinder.mk <$> required "id" Json.int32
    <*> required "cyNum" Json.string
    <*> defaulted "name" Json.string ""
    <*> required "driveSubId" Json.uint32
    <*> defaulted "sortNumber" Json.int32 0
    <*> optional "multiSensorCount" Json.uint32

def read : Decoder Cylinder := record.decode "Cylinder"

def write (c : Cylinder) : Json := .objectOf
  [("id", writeInt32 c.id), ("cyNum", Json.text c.number), ("name", Json.text c.name),
   ("driveSubId", writeUInt32 c.driveCode), ("sortNumber", writeInt32 c.sortNumber),
   ("multiSensorCount", c.pointCount.map writeUInt32)]

end Cylinder

namespace Operation

def record : RecordOf Operation :=
  Operation.mk <$> required "id" Json.int32
    <*> defaulted "name" Json.string ""
    <*> required "cylinderId" Json.int32
    <*> required "categoryId" Json.uint32
    <*> optional "goBack" Json.string
    <*> optional "start" Json.string
    <*> optional "finish" Json.string
    <*> optional "con" Json.string
    <*> optional "sensorCount" Json.uint32
    <*> defaulted "speedSensors" (Json.listOf Json.string) []
    <*> defaulted "speeds" (Json.listOf Json.int32) []
    <*> optional "startSpeed" Json.int32
    <*> optional "position" Json.int32
    <*> defaulted "sortNumber" Json.int32 0

def read : Decoder Operation := record.decode "Operation"

def write (o : Operation) : Json := .objectOf
  [("id", writeInt32 o.id), ("name", Json.text o.name), ("cylinderId", writeInt32 o.cylinderId),
   ("categoryId", writeUInt32 o.categoryCode), ("goBack", o.goBack.map Json.text),
   ("start", o.start.map Json.text), ("finish", o.finish.map Json.text),
   ("con", o.control.map Json.text), ("sensorCount", o.sensorCount.map writeUInt32),
   ("speedSensors", writeList Json.text o.speedSensors), ("speeds", writeList writeInt32 o.speeds),
   ("startSpeed", o.startSpeed.map writeInt32), ("position", o.position.map writeInt32),
   ("sortNumber", writeInt32 o.sortNumber)]

end Operation

namespace Process

def record : RecordOf Process :=
  Process.mk <$> required "id" Json.int32
    <*> defaulted "name" Json.string ""
    <*> required "categoryId" Json.uint32
    <*> defaulted "sortNumber" Json.int32 0
    <*> optional "blockNumber" Json.uint32

def read : Decoder Process := record.decode "Process"

def write (p : Process) : Json := .objectOf
  [("id", writeInt32 p.id), ("name", Json.text p.name), ("categoryId", writeUInt32 p.categoryCode),
   ("sortNumber", writeInt32 p.sortNumber), ("blockNumber", p.blockNumber.map writeUInt32)]

end Process

namespace Detail

def record : RecordOf Detail :=
  Detail.mk <$> required "id" Json.int32
    <*> defaulted "name" Json.string ""
    <*> required "processId" Json.int32
    <*> optional "operationId" Json.int32
    <*> defaulted "sortNumber" Json.int32 0

def read : Decoder Detail := record.decode "ProcessDetail"

def write (d : Detail) : Json := .objectOf
  [("id", writeInt32 d.id), ("name", Json.text d.name), ("processId", writeInt32 d.processId),
   ("operationId", d.operationId.map writeInt32), ("sortNumber", writeInt32 d.sortNumber)]

end Detail

namespace Timer

def record : RecordOf Timer :=
  Timer.mk <$> required "id" Json.int32
    <*> defaulted "name" Json.string ""
    <*> required "categoryId" Json.uint32
    <*> required "mnemonicType" EntityKind.read
    <*> defaulted "recordIds" (Json.listOf Json.int32) []
    <*> required "timerNum" Json.uint32
    <*> required "preset" Json.uint32

def read : Decoder Timer := record.decode "Timer"

def write (t : Timer) : Json := .objectOf
  [("id", writeInt32 t.id), ("name", Json.text t.name), ("categoryId", writeUInt32 t.categoryId),
   ("mnemonicType", t.kind.write), ("recordIds", writeList writeInt32 t.recordIds),
   ("timerNum", writeUInt32 t.number), ("preset", writeUInt32 t.preset)]

end Timer

namespace IoPoint

def record : RecordOf IoPoint :=
  IoPoint.mk <$> required "id" Json.int32
    <*> required "name" Json.string
    <*> required "address" Json.string
    <*> optional "linkDevice" Json.string
    <*> defaulted "isOutput" Json.boolean false
    <*> defaulted "scope" Json.string ""

def read : Decoder IoPoint := record.decode "Io"

def write (p : IoPoint) : Json := .objectOf
  [("id", writeInt32 p.id), ("name", Json.text p.name), ("address", Json.text p.address),
   ("linkDevice", p.linkDevice.map Json.text), ("isOutput", Json.bool p.isOutput),
   ("scope", Json.text p.scope)]

end IoPoint

namespace SpeedDevice

def record : RecordOf SpeedDevice :=
  SpeedDevice.mk <$> required "cylinderId" Json.int32 <*> required "device" Json.string

def read : Decoder SpeedDevice := record.decode "SpeedDevice"

def write (d : SpeedDevice) : Json := .objectOf
  [("cylinderId", writeInt32 d.cylinderId), ("device", Json.text d.device)]

end SpeedDevice

namespace ManualControl

def record : RecordOf ManualControl :=
  ManualControl.mk <$> required "cylinderId" Json.int32
    <*> required "go" Json.string
    <*> required "back" Json.string
    <*> required "enable" Json.string

def read : Decoder ManualControl := record.decode "ManualControl"

def write (m : ManualControl) : Json := .objectOf
  [("cylinderId", writeInt32 m.cylinderId), ("go", Json.text m.go), ("back", Json.text m.back),
   ("enable", Json.text m.enable)]

end ManualControl

namespace Allocation

def record : RecordOf Allocation :=
  Allocation.mk <$> required "mnemonicType" EntityKind.read
    <*> required "recordId" Json.int32
    <*> required "label" Json.string
    <*> required "startNum" Json.uint32
    <*> required "outCoilCount" Json.uint32

def read : Decoder Allocation := record.decode "MnemonicDevice"

def write (a : Allocation) : Json := .objectOf
  [("mnemonicType", a.kind.write), ("recordId", writeInt32 a.recordId),
   ("label", Json.text a.label), ("startNum", writeUInt32 a.start),
   ("outCoilCount", writeUInt32 a.count)]

end Allocation

namespace Condition

def record : RecordOf Condition :=
  Condition.mk <$> required "kind" (Json.variant ConditionKind.all ConditionKind.name)
    <*> required "ownerType" EntityKind.read
    <*> required "ownerId" Json.int32
    <*> required "detailId" Json.int32

def read : Decoder Condition := record.decode "ConditionRecord"

def write (c : Condition) : Json := .objectOf
  [("kind", Json.text c.kind.name), ("ownerType", c.ownerKind.write),
   ("ownerId", writeInt32 c.ownerId), ("detailId", writeInt32 c.detailId)]

end Condition

namespace Snapshot

def record : RecordOf Snapshot :=
  Snapshot.mk <$> defaulted "plcId" Json.int32 0
    <*> defaulted "cycleId" Json.int32 0
    <*> defaulted "cylinders" (Json.listOf Cylinder.read) []
    <*> defaulted "operations" (Json.listOf Operation.read) []
    <*> defaulted "processes" (Json.listOf Process.read) []
    <*> defaulted "processDetails" (Json.listOf Detail.read) []
    <*> defaulted "timers" (Json.listOf Timer.read) []
    <*> defaulted "ios" (Json.listOf IoPoint.read) []
    <*> defaulted "speedDevices" (Json.listOf SpeedDevice.read) []
    <*> defaulted "manualControls" (Json.listOf ManualControl.read) []
    <*> defaulted "mnemonics" (Json.listOf Allocation.read) []
    <*> defaulted "conditions" (Json.listOf Condition.read) []

def read : Decoder Snapshot := record.decode "ProjectSnapshot"

def write (s : Snapshot) : Json := .objectOf
  [("plcId", writeInt32 s.plcId), ("cycleId", writeInt32 s.cycleId),
   ("cylinders", writeList Cylinder.write s.cylinders),
   ("operations", writeList Operation.write s.operations),
   ("processes", writeList Process.write s.processes),
   ("processDetails", writeList Detail.write s.details),
   ("timers", writeList Timer.write s.timers),
   ("ios", writeList IoPoint.write s.points),
   ("speedDevices", writeList SpeedDevice.write s.speedDevices),
   ("manualControls", writeList ManualControl.write s.manualControls),
   ("mnemonics", writeList Allocation.write s.allocations),
   ("conditions", writeList Condition.write s.conditions)]

def ofText (text : String) : Json.Decoded Snapshot := Json.decodeText read text

end Snapshot

end Rungs
