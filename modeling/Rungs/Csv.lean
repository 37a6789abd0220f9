import Rungs.Row
import Rungs.Program

/-! The comma separated form of an instruction list. Each row is a record of step number, command,
first operand and note; each further operand is a record of its own with only the operand in it. A
comment has only its number and its note. Fields are quoted only where they have to be. -/

namespace Rungs.Csv

def needsQuotes (c : Char) : Bool := c == ',' || c == '"' || c == '\n' || c == '\r'

/-- Inside quotes a quote is written twice. -/
def doubled (c : Char) : List Char := if c = '"' then ['"', '"'] else [c]

def field (s : String) : List Char :=
  if s.toList.any needsQuotes then '"' :: s.toList.flatMap doubled ++ ['"'] else s.toList

/-- Fields with commas between them and a line end after them. -/
def record : List String → List Char
  | [] => ['\n']
  | [last] => field last ++ ['\n']
  | first :: rest => field first ++ ',' :: record rest

def headings : List String := ["StepNo", "Command", "Device", "Note"]

def rowRecords (r : Row) : List (List String) :=
  let step := toString r.id.toNat
  let note := r.note.getD ""
  if r.command = .comment then [[step, "", "", note]]
  else
    [step, r.command.mnemonic, r.operands.headD "", note] ::
      r.operands.tail.map fun operand => ["", "", operand, ""]

/-- The rows of a document, without its heading line. -/
def body (rows : List Row) : List Char := (rows.flatMap rowRecords).flatMap record

def renderChars (rows : List Row) : List Char := record headings ++ body rows

def render (rows : List Row) : String := String.ofList (renderChars rows)

end Rungs.Csv
