import Rungs.Cylinder.Motion
import Rungs.Cylinder.Manual

/-! What all drives of a cylinder have in common: commands collected from the running operations and
the manual signals, output coils that a command energises, and speed words. A command is on by hand
while manual operation is enabled, or by its operations in automatic mode, and never while an
operation forces the drive off. -/

namespace Rungs

structure Drive (σ : Type) where
  context : Context σ
  cylinder : Cylinder
  block : Block
  /-- In the order of the operations. -/
  motions : List Motion
  manual : ManualSignals

namespace Drive

variable {σ : Type} (d : Drive σ)

def bit (role : CylinderRole) : String := d.block.bit role

def contact (role : CylinderRole) : Contact := d.block.contact role

def inverted (role : CylinderRole) : Contact := d.block.inverted role

def goMotions : List Motion := towards .go d.motions

def backMotions : List Motion := towards .back d.motions

def offMotions : List Motion := towards .off d.motions

/-- The motions that move the cylinder: first all that go, then all that come back. -/
def drivingMotions : List Motion := d.goMotions ++ d.backMotions

def motionContacts (motions : List Motion) (role : OperationRole) : List Chain :=
  motions.map fun m => .single (m.contact role)

/-- On while the given bit of any of the motions is on. -/
def collect (motions : List Motion) (role : OperationRole) (target : CylinderRole) : Rung :=
  .anyOf (motionContacts motions role) d.context.alwaysOff [] (.out (d.bit target))

/-- One manual signal without the opposite one. -/
def manualRung (signal opposite : String) (target : CylinderRole) : Rung :=
  .start (.plain signal) [.series (.inverted opposite)] (.out (d.bit target))

def command (manual auto target : CylinderRole) : Rung :=
  { entry := ⟨d.contact manual, [.plain d.manual.enable]⟩
    others := [⟨d.contact auto, [.plain d.context.settings.autoModeSignal]⟩]
    links := [.series (d.inverted .forcedOff)]
    last := .out (d.bit target) }

def commonRungs : List Rung :=
  [(d.collect d.goMotions .runEnable .autoGo).under d.cylinder.displayName,
   d.collect d.backMotions .runEnable .autoBack,
   d.manualRung d.manual.go d.manual.back .manualGo,
   d.manualRung d.manual.back d.manual.go .manualBack,
   d.collect d.offMotions .runEnable .forcedOff,
   d.command .manualGo .autoGo .goCommand,
   d.command .manualBack .autoBack .backCommand,
   .start (d.contact .goCommand) [.parallel (d.contact .backCommand)] (.out (d.bit .outputOk))]

def common : Emission σ Unit := .emitAll d.commonRungs

/-- Holds a side for its retained motions until the opposite command comes. Without such motions the
side has no hold. -/
def retain (motions : List Motion) (opposite target : CylinderRole) :
    Emission σ (Option CylinderRole) :=
  match motionContacts (retained motions) .hold with
  | [] => pure none
  | c :: cs => do
    Emission.emit
      { entry := c, others := cs, links := [.series (d.inverted opposite)],
        last := .out (d.bit target) }
    return some target

def request (output : String) : Request := ⟨output, true, d.cylinder.number, d.cylinder.id⟩

/-- An output point's address, or a warning that says what will be missing. -/
def foundOutput (use : OutputUse) (point : String × Option String) : Emission σ (Option String) :=
  match point.2 with
  | some address => pure (some address)
  | none => do
    Emission.warn (.unknownOutput point.1 d.cylinder.number use)
    return none

/-- The addresses of the points that an output stands for, as far as they are known. -/
def outputs (output : String) (use : OutputUse) : Emission σ (List String) := do
  let points ← d.context.resolvePoints (d.request output) d.cylinder.pointCount
  let found ← points.mapM (d.foundOutput use)
  return found.reduceOption

/-- A single output that nothing is missing without. -/
def optionalOutput (output : String) : Emission σ (Option String) :=
  d.context.resolve (d.request output)

/-- The outputs at all addresses under one condition: the command or the hold, and none of what is
interlocked. -/
def coilRung (command : CylinderRole) (hold : Option CylinderRole) (interlocks : List Contact)
    (address : String) (more : List String) : Rung :=
  let coils := (address :: more).map Action.out
  .start (d.contact command)
    ((hold.map fun role => Link.parallel (d.contact role)).toList ++ interlocks.map .series ++
      coils.dropLast.map .act)
    (coils.getLast (by simp [coils]))

/-- Without addresses there is no rung. -/
def coil (command : CylinderRole) (hold : Option CylinderRole) (interlocks : List Contact)
    (addresses : List String) : Emission σ Unit :=
  match addresses with
  | [] => pure ()
  | address :: more => .emit (d.coilRung command hold interlocks address more)

/-- The word that a drive takes its speed from, which it cannot do without. -/
def speedDevice : Emission σ String :=
  match d.context.snapshot.speedDevice? d.cylinder.id with
  | some speed => pure (Text.trim speed.device)
  | none => .halt .noSpeedDevice

/-- Writes the speed that follows a speed change point. -/
def stepMove (m : Motion) (word : String) (step : Step) : Emission σ Unit :=
  match m.operation.speeds[step.val]? with
  | some speed => .emit (.start (m.contact (.speedStep step)) [] (.move speed.toInt word))
  | none => .warn (.noStepSpeed m.operation.id step)

/-- Writes a motion's speeds: the first when it runs, each further one at its speed change point. -/
def motionMoves (word : String) (m : Motion) : Emission σ Unit := do
  match m.operation.startSpeed with
  | some speed => Emission.emit (.start (m.contact .runEnable) [] (.move speed.toInt word))
  | none => pure ()
  m.template.steps.forM (stepMove m word)

/-- Writes the speeds of all motions, and zero while no command is on. -/
def speedMoves (word : String) : Emission σ Unit := do
  d.drivingMotions.forM (motionMoves word)
  Emission.emit (.start (d.inverted .outputOk) [] (.move 0 word))

end Drive

end Rungs
