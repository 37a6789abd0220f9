import Rungs.Settings
import Rungs.Diagnostic

/-! The signals by which a cylinder is moved by hand. They count only together: unless all three are
configured, each of them is the signal that is always off. -/

namespace Rungs

structure ManualSignals where
  go : String
  back : String
  enable : String
deriving DecidableEq, Repr, Inhabited

namespace ManualControl

def isComplete (m : ManualControl) : Bool :=
  [m.go, m.back, m.enable].all fun signal => !Text.isBlankText signal

def signals (m : ManualControl) : ManualSignals :=
  ⟨Text.trim m.go, Text.trim m.back, Text.trim m.enable⟩

end ManualControl

def ManualSignals.none (settings : Settings) : ManualSignals :=
  ⟨settings.alwaysOff, settings.alwaysOff, settings.alwaysOff⟩

/-- The manual signals of a cylinder, and what there is to say about them. -/
def resolveManual (control : Option ManualControl) (settings : Settings) :
    ManualSignals × Option Finding :=
  match control.filter (·.isComplete) with
  | some m => (m.signals, none)
  | none => (.none settings, some (.noManualControl settings.alwaysOff))

end Rungs
