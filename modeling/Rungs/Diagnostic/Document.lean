import Rungs.Diagnostic
import Rungs.Document

/-! How diagnostics are read from JSON and written to it. -/

namespace Rungs.Diagnostic

open Json (RecordOf Decoder)
open Json.RecordOf (required)

def record : RecordOf Diagnostic :=
  Diagnostic.mk <$> required "mnemonicType" EntityKind.read
    <*> required "recordId" Json.int32
    <*> required "recordName" Json.string
    <*> required "message" Json.string
    <*> required "isCritical" Json.boolean

def read : Decoder Diagnostic := record.decode "Diagnostic"

def write (d : Diagnostic) : Json := .objectOf
  [("mnemonicType", d.kind.write), ("recordId", writeInt32 d.recordId),
   ("recordName", Json.text d.recordName), ("message", Json.text d.message),
   ("isCritical", Json.bool d.isCritical)]

end Rungs.Diagnostic
