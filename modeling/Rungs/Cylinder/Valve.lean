import Rungs.Cylinder.Drive

/-! Valves: a single coil, two coils that lock each other out, and the latter with a speed word. -/

namespace Rungs.Drive

variable {σ : Type} (d : Drive σ)

def goOutput : String := "G"

def backOutput : String := "B"

def singleValve : Emission σ Unit := do
  d.common
  let hold ← d.retain d.goMotions .backCommand .retainGo
  let addresses ← d.outputs goOutput .valve
  d.coil .goCommand hold [] addresses

/-- What a coil must not be energised with: the opposite command and the opposite coil's first
output. -/
def interlocks (opposite : CylinderRole) (addresses : List String) : List Contact :=
  d.inverted opposite :: (addresses.head?.map Contact.inverted).toList

def doubleCoils : Emission σ Unit := do
  let holdGo ← d.retain d.goMotions .backCommand .retainGo
  let holdBack ← d.retain d.backMotions .goCommand .retainBack
  let go ← d.outputs goOutput .goCoil
  let back ← d.outputs backOutput .backCoil
  d.coil .goCommand holdGo (d.interlocks .backCommand back) go
  d.coil .backCommand holdBack (d.interlocks .goCommand go) back

def doubleValve : Emission σ Unit := do
  d.common
  d.doubleCoils

def flowValve : Emission σ Unit := do
  let word ← d.speedDevice
  d.common
  d.doubleCoils
  d.speedMoves word

end Rungs.Drive
