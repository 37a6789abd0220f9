/-! Rows of an instruction list: a command, its operands and an optional note. A row built here has
number 0; its place in a program decides the number it ends up with. -/

namespace Rungs

inductive Command where
  | ld | ldi | and | ani | or | ori | anb | orb
  | out | set | rst | pls | mov | inc | sub | cj
  | comment
deriving DecidableEq, Repr, Inhabited

namespace Command

/-- Every command once, in the order in which they are listed to a reader. -/
def all : List Command :=
  [ld, ldi, and, ani, or, ori, anb, orb, out, set, rst, pls, mov, inc, sub, cj, comment]

/-- The word a controller reads. A comment has none. -/
def mnemonic : Command → String
  | ld => "LD" | ldi => "LDI" | and => "AND" | ani => "ANI" | or => "OR" | ori => "ORI"
  | anb => "ANB" | orb => "ORB" | out => "OUT" | set => "SET" | rst => "RST" | pls => "PLS"
  | mov => "MOV" | inc => "INC" | sub => "-" | cj => "CJ" | comment => ""

/-- The name under which documents write a command. -/
def name : Command → String
  | ld => "Ld" | ldi => "Ldi" | and => "And" | ani => "Ani" | or => "Or" | ori => "Ori"
  | anb => "Anb" | orb => "Orb" | out => "Out" | set => "Set" | rst => "Rst" | pls => "Pls"
  | mov => "Mov" | inc => "Inc" | sub => "Sub" | cj => "Cj" | comment => "Comment"

/-- These commands begin a new group of contacts. -/
def isLoad : Command → Bool
  | ld | ldi => true
  | _ => false

theorem mem_all (c : Command) : c ∈ all := by cases c <;> decide

theorem name_injective {c d : Command} (h : c.name = d.name) : c = d := by
  have table : ∀ c ∈ all, ∀ d ∈ all, c.name = d.name → c = d := by decide
  exact table c (mem_all c) d (mem_all d) h

end Command

structure Row where
  id : UInt32 := 0
  command : Command
  operands : List String := []
  note : Option String := none
deriving DecidableEq, Repr, Inhabited

namespace Row

def instruction (command : Command) (operands : List String) : Row := { command, operands }

/-- A comment carries its text as the note. -/
def comment (text : String) : Row := { command := .comment, note := some text }

end Row

end Rungs
