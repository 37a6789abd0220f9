import Rungs.Program
import Rungs.Document

/-! How programs are read from JSON and written to it. The counter of a program is not written. -/

namespace Rungs

open Json (RecordOf Decoder)
open Json.RecordOf (required defaulted optional)

namespace Row

def record : RecordOf Row :=
  Row.mk <$> defaulted "id" Json.uint32 0
    <*> required "command" (Json.variant Command.all Command.name)
    <*> defaulted "operands" (Json.listOf Json.string) []
    <*> optional "note" Json.string

def read : Decoder Row := record.decode "LadderRow"

def write (r : Row) : Json := .objectOf
  [("id", writeUInt32 r.id), ("command", Json.text r.command.name),
   ("operands", writeList Json.text r.operands), ("note", r.note.map Json.text)]

end Row

namespace Section

def record : RecordOf Section :=
  Section.mk <$> required "kind" EntityKind.readName
    <*> required "rows" (Json.listOf Row.read)

def read : Decoder Section := record.decode "ProgramSection"

def write (s : Section) : Json := .objectOf
  [("kind", s.kind.writeName), ("rows", writeList Row.write s.rows)]

end Section

namespace Program

def record : RecordOf Program :=
  Program.restored <$> required "sections" (Json.listOf Section.read)

def read : Decoder Program := record.decode "LadderProgram"

def write (p : Program) : Json := .objectOf [("sections", writeList Section.write p.sections)]

def ofText (text : String) : Json.Decoded Program := Json.decodeText read text

end Program

end Rungs
