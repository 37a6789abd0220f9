import Rungs.Cylinder.Valve

/-! Motors, inverters and servos. Forward and reverse lock each other out by their commands; an
inverter also has a speed word and a forced deceleration; a servo has a position word, the word
after it for its speed, a start output, a brake and jog outputs. -/

namespace Rungs.Drive

variable {σ : Type} (d : Drive σ)

/-- The reverse output is required only if some motion comes back. -/
def reverseOutputs : Emission σ (List String) :=
  if d.backMotions.isEmpty then do
    let address ← d.optionalOutput backOutput
    return address.toList
  else d.outputs backOutput .reverse

def forwardReverse : Emission σ Unit := do
  let forward ← d.outputs goOutput .forward
  let reverse ← d.reverseOutputs
  d.coil .goCommand none [d.inverted .backCommand] forward
  d.coil .backCommand none [d.inverted .goCommand] reverse

def motor : Emission σ Unit := do
  d.common
  d.forwardReverse

/-- Zero speed once the drive has been forced off, or paused, for the timer's time. -/
def decelerationRungs (timer : Timer) (word : String) : List Rung :=
  [.start (d.contact .forcedOff)
    [.parallel (.plain d.context.settings.pauseSignal),
     .act (.delay timer.number timer.preset),
     .series (.inverted (Device.timer timer.number))]
    (.out (d.bit .decelerate)),
   .start (d.contact .decelerate) [] (.move 0 word)]

def deceleration (word : String) : Emission σ Unit :=
  match d.context.timer d.cylinder.owner .forcedDeceleration with
  | .found timer => .emitAll (d.decelerationRungs timer word)
  | .missing => .warn .noDecelerationTimer
  | .duplicate count => .warn (.severalDecelerationTimers count)

def inverter : Emission σ Unit := do
  let word ← d.speedDevice
  d.common
  d.forwardReverse
  d.speedMoves word
  d.deceleration word

def positioningMotions : List Motion := d.drivingMotions.filter (·.template.isPositioning)

/-- Writes a motion's target position when its positioning starts. -/
def positionMove (word : String) (m : Motion) : Emission σ Unit :=
  match m.operation.position with
  | some position =>
    .emit (.start (m.contact .positioningStart) [] (.move position.toInt word))
  | none => .warn (.noPosition m.operation.id)

/-- Writes a motion's position and, where there is a word for them, its speeds. -/
def servoMoves (positionWord : String) (speedWord : Option String) (m : Motion) :
    Emission σ Unit := do
  positionMove positionWord m
  match speedWord with
  | some word => motionMoves word m
  | none => pure ()

def speedWord (positionWord : String) : Emission σ (Option String) :=
  match Device.offset? positionWord 1 with
  | some word => pure (some word)
  | none => do
    Emission.warn (.noWordDevice positionWord)
    return none

def jog (output : String) (role : CylinderRole) : Emission σ Unit := do
  match ← d.optionalOutput output with
  | some address =>
    Emission.emit (.start (d.contact role) [.series (.plain d.manual.enable)] (.out address))
  | none => pure ()

def servoStartOutput : String := "PST"

def brakeOutput : String := "BRK"

def jogForwardOutput : String := "JOG+"

def jogReverseOutput : String := "JOG-"

def brakeRung : Rung :=
  .start (d.contact .outputOk)
    [.parallel (d.contact .manualGo), .parallel (d.contact .manualBack)]
    (.out (d.bit .brakeRelease))

def servo : Emission σ Unit := do
  let positionWord ← d.speedDevice
  d.common
  Emission.emit (d.collect d.positioningMotions .positioningStart .servoStart)
  let word ← speedWord positionWord
  d.positioningMotions.forM (servoMoves positionWord word)
  let start ← d.outputs servoStartOutput .servoStart
  d.coil .servoStart none [] start
  Emission.emit d.brakeRung
  let brake ← d.outputs brakeOutput .brake
  d.coil .brakeRelease none [] brake
  d.jog jogForwardOutput .manualGo
  d.jog jogReverseOutput .manualBack

end Rungs.Drive
