import Rungs.Json.Numeral

/-! The tree of a JSON text, faults included. Each fault stands at its place in the tree, so that
whoever walks the tree from left to right meets the first problem of the text first, be it a fault
or a value that does not fit. What is passed over is held to a laxer rule than what is read: a
string with a lone surrogate or a number out of range is a fault only for its reader
(`Node.skipFault?`). -/

namespace Rungs.Json

mutual

inductive Node where
  | null
  | bool (value : Bool)
  | number (value : Except Fault Numeral)
  | text (value : Except Fault String)
  /-- `stop` is the fault met where the next comma or the closing bracket should stand. -/
  | array (items : List Node) (stop : Option Fault)
  | object (entries : List Entry) (stop : Option Fault)
  /-- The text stops to make sense inside this value, which begins with `opening` if it begins at
  all. -/
  | broken (opening : Option Char) (read skip : Fault)

inductive Entry where
  | member (name : Except Fault String) (value : Node)
  /-- Something else than a name stands in a name's place, or nothing at all. -/
  | nameless (fault : Fault)

end

instance : Inhabited Node := ⟨.null⟩

mutual

/-- The first fault for someone who passes over a value. -/
def Node.skipFault? : Node → Option Fault
  | .null | .bool _ | .number _ | .text _ => none
  | .array items stop => (skipItems items).or stop
  | .object entries stop => (skipEntries entries).or stop
  | .broken _ _ skip => some skip

def skipItems : List Node → Option Fault
  | [] => none
  | node :: nodes => (node.skipFault?).or (skipItems nodes)

def skipEntries : List Entry → Option Fault
  | [] => none
  | .member _ value :: entries => (value.skipFault?).or (skipEntries entries)
  | .nameless fault :: _ => some fault

end

/-- A text as a document: its value, and whether anything but white space follows. -/
structure Document where
  root : Node
  trailing : Bool
deriving Inhabited

end Rungs.Json
