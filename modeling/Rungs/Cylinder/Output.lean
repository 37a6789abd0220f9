import Rungs.Cylinder.Motor

/-! The rungs of one cylinder, as its drive class demands. -/

namespace Rungs

def Drive.output {σ : Type} (d : Drive σ) : DriveClass → Emission σ Unit
  | .singleValve => d.singleValve
  | .doubleValve => d.doubleValve
  | .flowValve => d.flowValve
  | .motor => d.motor
  | .servo => d.servo
  | .inverter => d.inverter

namespace Context

variable {σ : Type} (c : Context σ)

/-- A motion that drives no known way is left out, with a warning. -/
def checkDirection (m : Motion) : Emission σ Unit :=
  match m.direction? with
  | some _ => pure ()
  | none => .warn (.unknownDirection m.operation.id m.side)

def manualSignals (cylinder : Cylinder) : Emission σ ManualSignals := do
  let (signals, finding) :=
    resolveManual (c.snapshot.manualControl? cylinder.id) c.settings
  finding.toList.forM Emission.warn
  return signals

def cylinder (cy : Cylinder) : Emission σ Unit :=
  match DriveClass.ofCode? cy.driveCode with
  | none => .halt (.unknownDriveCode cy.driveCode)
  | some driveClass => do
    let block ← c.block cy.owner driveClass.roles
    let motions := c.snapshot.motionsOf cy.id
    motions.forM checkDirection
    let manual ← c.manualSignals cy
    (Drive.mk c cy block motions manual).output driveClass

end Context

end Rungs
