import Rungs.Json.Reader
import Rungs.Text.Quoted

/-! Reading typed values out of the tree of a text. A decoder meets what it reads from left to
right, so the first problem wins. A record is written as an object, with its keys in any order and
unknown keys passed over, or as an array of its fields; a field that has a default may be missing,
in an array only at the end. -/

namespace Rungs.Json

/-- What stands in the text where something else was expected. -/
inductive Found where
  | null
  | bool (value : Bool)
  | int (value : Int)
  | float (value : Float)
  | text (value : String)
  | list
  | object
deriving Repr, Inhabited

def Found.describe : Found → String
  | null => "null"
  | bool b => "boolean `" ++ toString b ++ "`"
  | int n => "integer `" ++ toString n ++ "`"
  | float x => "floating point `" ++ messageFormat.render x ++ "`"
  | text s => "string " ++ Text.quoted s
  | list => "sequence"
  | object => "map"

/-- How a well-formed text fails to be what it should be. -/
inductive Mismatch where
  | wrongType (found : Found) (expected : String)
  | outOfRange (value : Int) (expected : String)
  | missingField (name : String)
  | duplicateField (name : String)
  | wrongLength (length : Nat) (record : String) (fields : Nat)
  | unknownVariant (name : String) (allowed : List String)
  | unknownKind (id : UInt8)
deriving Repr, Inhabited

def backticked (s : String) : String := "`" ++ s ++ "`"

/-- The choice among names. -/
def alternatives : List String → String
  | [a] => backticked a
  | [a, b] => backticked a ++ " or " ++ backticked b
  | names => "one of " ++ String.intercalate ", " (names.map backticked)

def Mismatch.message : Mismatch → String
  | wrongType found expected => s!"invalid type: {found.describe}, expected {expected}"
  | outOfRange value expected =>
    s!"invalid value: {(Found.int value).describe}, expected {expected}"
  | missingField name => "missing field " ++ backticked name
  | duplicateField name => "duplicate field " ++ backticked name
  | wrongLength length record fields =>
    let noun := if fields = 1 then "element" else "elements"
    s!"invalid length {length}, expected struct {record} with {fields} {noun}"
  | unknownVariant name allowed =>
    s!"unknown variant {backticked name}, expected {alternatives allowed}"
  | unknownKind id => s!"unknown mnemonicType id: {id.toNat}"

inductive Problem where
  | fault (fault : Fault)
  | mismatch (mismatch : Mismatch)
deriving Repr, Inhabited

def Problem.message : Problem → String
  | fault .malformed => "malformed JSON"
  | fault .truncated => "unexpected end of JSON"
  | mismatch m => m.message

abbrev Decoded (α : Type) := Except Problem α

abbrev Decoder (α : Type) := Node → Decoded α

def failFault {α : Type} (f : Fault) : Decoded α := .error (.fault f)

def failMismatch {α : Type} (m : Mismatch) : Decoded α := .error (.mismatch m)

/-- The problem with a value of the wrong type: a token is read to its end before its type
counts. -/
def Node.wrongType {α : Type} (n : Node) (expected : String) : Decoded α :=
  let fail (found : Found) : Decoded α := failMismatch (.wrongType found expected)
  match n with
  | .null => fail .null
  | .bool b => fail (.bool b)
  | .number (.ok (.int value)) => fail (.int value)
  | .number (.ok (.float value)) => fail (.float value)
  | .text (.ok s) => fail (.text s)
  | .array _ _ => fail .list
  | .object _ _ => fail .object
  | .number (.error f) | .text (.error f) | .broken _ f _ => failFault f

/-- A whole number between two bounds. -/
def integer (expected : String) (low high : Int) : Decoder Int
  | .number (.ok (.int value)) =>
    if low ≤ value ∧ value ≤ high then .ok value else failMismatch (.outOfRange value expected)
  | n => n.wrongType expected

def int32 : Decoder Int32 := fun n =>
  (integer "i32" int32Min int32Max n).map Int32.ofInt

def uint32 : Decoder UInt32 := fun n =>
  (integer "u32" 0 (UInt32.size - 1) n).map fun value => UInt32.ofNat value.toNat

def uint8 : Decoder UInt8 := fun n =>
  (integer "u8" 0 (UInt8.size - 1) n).map fun value => UInt8.ofNat value.toNat

def string : Decoder String
  | .text (.ok s) => .ok s
  | n => n.wrongType "a string"

def boolean : Decoder Bool
  | .bool b => .ok b
  | n => n.wrongType "a boolean"

def nullable {α : Type} (decode : Decoder α) : Decoder (Option α)
  | .null => .ok none
  | n => (decode n).map some

def stopped (stop : Option Fault) : Decoded Unit :=
  match stop with
  | some f => failFault f
  | none => .ok ()

def listOf {α : Type} (decode : Decoder α) : Decoder (List α)
  | .array items stop => do
    let values ← items.mapM decode
    stopped stop
    return values
  | n => n.wrongType "a sequence"

/-- A constant with a name: one of `values`, under the name that `name` gives it. -/
def variantNamed {α : Type} (values : List α) (name : α → String) (written : String) : Decoded α :=
  match values.find? fun v => name v == written with
  | some v => .ok v
  | none => failMismatch (.unknownVariant written (values.map name))

/-- Only null stands for nothing. -/
def unit : Decoder Unit
  | .null => .ok ()
  | n => n.wrongType "unit"

/-- A constant, written as its name or as an object with the name as its only key. -/
def variant {α : Type} (values : List α) (name : α → String) : Decoder α
  | .text (.ok written) => variantNamed values name written
  | .object (.member written value :: rest) stop => do
    let written ← match written with
      | .ok written => pure written
      | .error f => failFault f
    let chosen ← variantNamed values name written
    unit value
    if rest.isEmpty then
      stopped stop
      return chosen
    else failFault .malformed
  | .object (.nameless f :: _) _ => failFault f
  | .text (.error f) => failFault f
  | .broken opening f _ =>
    failFault (if opening = none ∨ opening = some '"' then f else .malformed)
  | _ => failFault .malformed

/-- One field of a record: its key, and whether a value will do for it. -/
structure Field where
  key : String
  check : Node → Decoded Unit

/-- The values given for the fields of a record, and the problem with a field that got none. -/
structure Given where
  node? : String → Option Node
  absent : String → Problem

/-- How a record is put together from its fields, which are listed in the order of the array
form. -/
structure RecordOf (α : Type) where
  fields : List Field
  build : Given → Decoded α

namespace RecordOf

variable {α β : Type}

instance : Functor RecordOf where
  map f r := ⟨r.fields, fun g => (r.build g).map f⟩

instance : Applicative RecordOf where
  pure a := ⟨[], fun _ => .ok a⟩
  seq f r :=
    let r := r ()
    ⟨f.fields ++ r.fields, fun g => (f.build g).bind fun f => (r.build g).map f⟩

def field (key : String) (decode : Decoder α) (otherwise : Option α) : RecordOf α where
  fields := [⟨key, fun n => (decode n).map fun _ => ()⟩]
  build g :=
    match g.node? key, otherwise with
    | some n, _ => decode n
    | none, some a => .ok a
    | none, none => .error (g.absent key)

/-- A field that must be given. -/
def required (key : String) (decode : Decoder α) : RecordOf α := field key decode none

/-- A field with a default. Null is not a way to leave it out. -/
def defaulted (key : String) (decode : Decoder α) (otherwise : α) : RecordOf α :=
  field key decode (some otherwise)

/-- A field that may be left out or null. -/
def optional (key : String) (decode : Decoder α) : RecordOf (Option α) :=
  defaulted key (nullable decode) none

variable (r : RecordOf α)

/-- The known members of an object. A key counts as a duplicate where it is met again. -/
def members : List Entry → Option Fault → List (String × Node) → Decoded (List (String × Node))
  | [], stop, seen => do
    stopped stop
    return seen
  | .nameless f :: _, _, _ => failFault f
  | .member (.error f) _ :: _, _, _ => failFault f
  | .member (.ok key) value :: entries, stop, seen =>
    match r.fields.find? (·.key == key) with
    | none => do
      stopped value.skipFault?
      members entries stop seen
    | some field =>
      if seen.any (·.1 == key) then failMismatch (.duplicateField key)
      else do
        field.check value
        members entries stop ((key, value) :: seen)

/-- The items of an array as the first fields of the record. Anything after its last field is
malformed. -/
def elements : List Field → List Node → Option Fault → Decoded (List (String × Node))
  | [], [], stop => do
    stopped stop
    return []
  | [], _ :: _, _ => failFault .malformed
  | _ :: _, [], stop => do
    stopped stop
    return []
  | field :: fields, node :: nodes, stop => do
    field.check node
    let rest ← elements fields nodes stop
    return (field.key, node) :: rest

def keys : List String := r.fields.map (·.key)

/-- Reads a record. In an array the place of a missing field is the length to complain about. -/
def decode (name : String) : Decoder α
  | .object entries stop => do
    let given ← r.members entries stop []
    r.build ⟨fun key => given.lookup key, fun key => .mismatch (.missingField key)⟩
  | .array items stop => do
    let given ← elements r.fields items stop
    r.build ⟨fun key => given.lookup key, fun key =>
      .mismatch (.wrongLength (r.keys.idxOf key) name r.keys.length)⟩
  | n => n.wrongType ("struct " ++ name)

end RecordOf

/-- Reads a whole text. -/
def decodeText {α : Type} (decode : Decoder α) (s : String) : Decoded α := do
  let document := Document.ofText s
  let value ← decode document.root
  if document.trailing then failFault .malformed else return value

end Rungs.Json
