import Rungs.Settings
import Rungs.Document

/-! How settings are read from JSON and written to it. Every setting may be missing. -/

namespace Rungs.Settings

open Json (RecordOf Decoder)
open Json.RecordOf (defaulted)

def record : RecordOf Settings :=
  let base : Settings := {}
  Settings.mk <$> defaulted "alwaysOn" Json.string base.alwaysOn
    <*> defaulted "alwaysOff" Json.string base.alwaysOff
    <*> defaulted "pauseSignal" Json.string base.pauseSignal
    <*> defaulted "resetSignal" Json.string base.resetSignal
    <*> defaulted "autoModeSignal" Json.string base.autoModeSignal
    <*> defaulted "testModeSignal" Json.string base.testModeSignal
    <*> defaulted "debugStartSignal" Json.string base.debugStartSignal
    <*> defaulted "jumpLabel" Json.string base.jumpLabel

def read : Decoder Settings := record.decode "GenerationSettings"

def write (s : Settings) : Json := .objectOf
  [("alwaysOn", Json.text s.alwaysOn), ("alwaysOff", Json.text s.alwaysOff),
   ("pauseSignal", Json.text s.pauseSignal), ("resetSignal", Json.text s.resetSignal),
   ("autoModeSignal", Json.text s.autoModeSignal), ("testModeSignal", Json.text s.testModeSignal),
   ("debugStartSignal", Json.text s.debugStartSignal), ("jumpLabel", Json.text s.jumpLabel)]

def ofText (text : String) : Json.Decoded Settings := Json.decodeText read text

end Rungs.Settings
