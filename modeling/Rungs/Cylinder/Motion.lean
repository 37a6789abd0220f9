import Rungs.Context
import Rungs.Template

/-! The motions of a cylinder: its operations that have a known template and a block, by what they
ask of the drive. -/

namespace Rungs

structure Motion where
  operation : Operation
  template : OperationTemplate
  block : Block
deriving DecidableEq, Repr, Inhabited

inductive Direction where
  | go | back
  /-- Switches the drive off. -/
  | off
deriving DecidableEq, Repr, Inhabited

namespace Motion

/-- The side an operation names, without blanks around it. -/
def side (m : Motion) : String := (m.operation.goBack.map Text.trim).getD ""

/-- Which way a motion drives, unless its operation names no side. -/
def direction? (m : Motion) : Option Direction :=
  if m.template = .excitationOff then some .off
  else if m.side = "G" then some .go
  else if m.side = "B" then some .back
  else none

def contact (m : Motion) (role : OperationRole) : Contact := m.block.contact role

end Motion

def Snapshot.motion? (s : Snapshot) (o : Operation) : Option Motion :=
  match OperationTemplate.ofCode? o.categoryCode, s.block? .operation o.id with
  | some template, some block => some ⟨o, template, block⟩
  | _, _ => none

/-- All motions of a cylinder in the order of its operations. -/
def Snapshot.motionsOf (s : Snapshot) (cylinderId : Int32) : List Motion :=
  (s.operationsOf cylinderId).filterMap s.motion?

/-- The motions that drive one way. -/
def towards (direction : Direction) (motions : List Motion) : List Motion :=
  motions.filter fun m => m.direction? == some direction

/-- The motions whose operations stay held until reset. -/
def retained (motions : List Motion) : List Motion :=
  motions.filter fun m => m.template == .retention

end Rungs
