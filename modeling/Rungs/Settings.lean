/-! Devices that every project shares: the constant signals, the operating modes and the label of
jump pointers. -/

namespace Rungs

structure Settings where
  alwaysOn : String := "SM400"
  /-- Also stands in wherever a signal could not be found. -/
  alwaysOff : String := "SM401"
  pauseSignal : String := "M5000"
  resetSignal : String := "M5001"
  autoModeSignal : String := "M5002"
  testModeSignal : String := "M5003"
  debugStartSignal : String := "M5004"
  jumpLabel : String := "P"
deriving DecidableEq, Repr, Inhabited

/-- The pointer that marks a program block. -/
def Settings.jumpPointer (s : Settings) (block : UInt32) : String :=
  s.jumpLabel ++ toString block.toNat

end Rungs
