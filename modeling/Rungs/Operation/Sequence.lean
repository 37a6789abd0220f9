import Rungs.Context
import Rungs.Template

/-! The sequence of one operation: a reset gate over everything, a start latch, the run enable that
cylinders act on, and a chain of confirmations from the start sensor over the speed change points
to the finish sensor, the stable gate and the completion pulse. Every link of the chain starts from
the one before it. A sensor or timer that the template cannot do without stops the sequence; the
rungs up to there are kept. -/

namespace Rungs

/-- An operation whose template is known and whose block holds the template's roles. -/
structure Sequencer (σ : Type) where
  context : Context σ
  operation : Operation
  template : OperationTemplate
  block : Block
  /-- Where the operation's sensors are looked up first. -/
  scope : String

/-- A timer that runs while its source is on, and a device that is on when the time is up. -/
def timerRungs (timer : Timer) (source target : String) : List Rung :=
  [.start (.plain source) [] (.delay timer.number timer.preset),
   .start (.plain (Device.timer timer.number)) [] (.out target)]

namespace Sequencer

variable {σ : Type} (s : Sequencer σ)

def bit (role : OperationRole) : String := s.block.bit role

def contact (role : OperationRole) : Contact := s.block.contact role

def inverted (role : OperationRole) : Contact := s.block.inverted role

def sensors (name : String) (count : Option UInt32) : Emission σ (List Contact) :=
  s.context.sensors s.operation.owner name count s.scope

def timer (category : TimerCategory) : TimerLookup :=
  s.context.timer s.operation.owner category

def resetSignal : Contact := .inverted s.context.settings.resetSignal

/-- Goes on with the source under all the conditions, stays on by itself, and falls with the reset
gate. -/
def latch (source : Contact) (conditions : List Contact) (target : OperationRole) : Rung :=
  .start source
    (conditions.map .series ++ [.parallel (s.contact target), .series (s.contact .resetGate)])
    (.out (s.bit target))

/-- The target follows the source, after the category's timer if there is one. -/
def optionalDelay (category : TimerCategory) (source target : OperationRole) : Emission σ Unit :=
  let direct := Rung.start (s.contact source) [] (.out (s.bit target))
  match s.timer category with
  | .found timer => .emitAll (timerRungs timer (s.bit source) (s.bit target))
  | .missing => .emit direct
  | .duplicate count => do
    Emission.warn (.severalDelayTimers count category)
    Emission.emit direct

/-- The cylinder and the operation, as the comment above the sequence names them. -/
def title : String :=
  let cylinder := s.context.snapshot.cylinder? s.operation.cylinderId
  Text.trim ((cylinder.map (·.displayName)).getD "" ++ " " ++ s.operation.name)

/-- A detail that runs and is not complete. -/
def activeDetail (detail : Detail) : Emission σ (Option Chain) :=
  match s.context.snapshot.block? .detail detail.id with
  | some block =>
    pure (some ⟨block.contact DetailRole.running, [block.inverted DetailRole.complete]⟩)
  | none => do
    Emission.warn (.unallocatedDetail detail.id)
    return none

/-- Open while one of the operation's details is active and the reset signal is off. -/
def resetGate : Emission σ Unit := do
  let active ← (s.context.snapshot.detailsOfOperation s.operation.id).mapM s.activeDetail
  Emission.emit <| Rung.under s.title <|
    .anyOf active.reduceOption s.context.alwaysOff [.series s.resetSignal] (.out (s.bit .resetGate))

/-- Remembers the confirmed start until the reset signal comes. -/
def hold : Emission σ Unit :=
  .emit (.start (s.contact .startConfirmed) [.parallel (s.contact .hold), .series s.resetSignal]
    (.out (s.bit .hold)))

/-- The gate with the pause signal off and the control sensor agreeing starts the operation. -/
def startLatch : Emission σ Unit := do
  let control ← match Text.configured? s.operation.control with
    | some name => s.sensors name none
    | none => pure []
  Emission.emit (s.latch (s.contact .resetGate)
    (.inverted s.context.settings.pauseSignal :: control) .startLatch)

def positioningStart : Emission σ Unit :=
  .emit (.start (s.contact .runEnable) [] (.pulse (s.bit .positioningStart)))

def runEnable : Emission σ Unit :=
  let held := if s.template = .retention then [Link.parallel (s.contact .hold)] else []
  let stopped :=
    if s.template.stopsAtFinish then [Link.series (s.inverted .finishDetected)] else []
  .emit (.start (s.contact .startLatch) (held ++ stopped) (.out (s.bit .runEnable)))

def startDelay : Emission σ Unit := s.optionalDelay .startWait .runEnable .startDelay

def startConfirmed : Emission σ Unit :=
  match Text.configured? s.operation.start with
  | none => .halt .noStartSensor
  | some name => do
    let contacts ← s.sensors name s.operation.sensorCount
    Emission.emit (s.latch (s.contact .startDelay) contacts .startConfirmed)

def positioningBusy : Emission σ Unit :=
  .emit (.start (s.contact .positioningStart)
    [.parallel (s.contact .positioningBusy), .series (s.inverted .finishDetected),
     .series (s.contact .resetGate)]
    (.out (s.bit .positioningBusy)))

/-- One speed change point, confirmed by its sensor and its timer after the link `previous`. The
answer is the last link of the chain: the step itself, or `previous` where the step is skipped
because its timer is not unique. -/
def speedStep (previous : OperationRole) (step : Step) : Emission σ OperationRole :=
  match Text.configured? s.operation.speedSensors[step.val]? with
  | none => .halt (.noSpeedSensor step)
  | some name =>
    match s.timer (.speedChange step) with
    | .missing => .halt (.noSpeedTimer step)
    | .duplicate count => do
      Emission.warn (.severalSpeedTimers count step)
      return previous
    | .found timer => do
      let contacts ← s.sensors name none
      Emission.emitAll
        [.start (s.contact previous) (contacts.map .series) (.delay timer.number timer.preset),
         s.latch (.plain (Device.timer timer.number)) [] (.speedStep step)]
      return .speedStep step

def finishDetected (previous : OperationRole) : Emission σ Unit :=
  match Text.configured? s.operation.finish with
  | none => .halt .noFinishSensor
  | some name => do
    let contacts ← s.sensors name s.operation.sensorCount
    Emission.emit (s.latch (s.contact previous) contacts .finishDetected)

/-- The link that the stable gate starts from: the finish, deep in its seat if a timer says so. -/
def deepSeat : Emission σ OperationRole :=
  match s.timer .deepSeat with
  | .found timer => do
    Emission.emitAll (timerRungs timer (s.bit .finishDetected) (s.bit .deepSeat))
    return .deepSeat
  | .missing => pure .finishDetected
  | .duplicate count => do
    Emission.warn (.severalDeepSeatTimers count)
    return .finishDetected

def stableGate (source : OperationRole) : Emission σ Unit :=
  s.optionalDelay .stable source .stableGate

def completion : Emission σ Unit :=
  .emit (.start (s.contact .stableGate) [] (.pulse (s.bit .completion)))

def sequence : Emission σ Unit := do
  s.resetGate
  if s.template = .retention then s.hold
  s.startLatch
  if s.template.isPositioning then s.positioningStart
  s.runEnable
  s.startDelay
  s.startConfirmed
  if s.template.isPositioning then s.positioningBusy
  let last ← s.template.steps.foldlM s.speedStep .startConfirmed
  s.finishDetected last
  let source ← s.deepSeat
  s.stableGate source
  s.completion

end Sequencer

namespace Context

variable {σ : Type} (c : Context σ)

/-- The scope of an operation's sensors: the number of its cylinder. -/
def operationScope (o : Operation) : Emission σ String :=
  match c.snapshot.cylinder? o.cylinderId with
  | some cylinder => pure cylinder.number
  | none => do
    Emission.warn (.unknownCylinder o.cylinderId)
    return ""

def operation (o : Operation) : Emission σ Unit :=
  match OperationTemplate.ofCode? o.categoryCode with
  | none => .halt (.unknownOperationCategory o.categoryCode)
  | some template => do
    let block ← c.block o.owner template.roles
    let scope ← c.operationScope o
    (Sequencer.mk c o template block scope).sequence

end Context

end Rungs
