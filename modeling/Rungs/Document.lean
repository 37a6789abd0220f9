import Rungs.EntityKind
import Rungs.Json.Basic
import Rungs.Json.Decode

/-! What the documents of this library share: numbers of a fixed width, lists, and the kinds of
entities. In a document an absent optional value is left out; everything else is written, in the
order in which the array form of a record lists it. -/

namespace Rungs

def writeInt32 (n : Int32) : Json := .int n.toInt

def writeUInt32 (n : UInt32) : Json := .int n.toNat

def writeList {α : Type} (write : α → Json) (xs : List α) : Json := .list (xs.map write)

namespace EntityKind

/-- A kind is written as its number. -/
def read : Json.Decoder EntityKind := fun n => do
  let id ← Json.uint8 n
  match ofId? id with
  | some kind => return kind
  | none => Json.failMismatch (.unknownKind id)

def write (k : EntityKind) : Json := .int k.id.toNat

/-- The kind of a section is written as its name. -/
def readName : Json.Decoder EntityKind := Json.variant [operation, cylinder, process, detail] name

def writeName (k : EntityKind) : Json := .text k.name

end EntityKind

end Rungs
