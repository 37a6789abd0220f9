import Rungs.Context
import Rungs.Template

/-! Processes and their details. A process starts when the details it waits for are complete (or by
hand in test mode), runs by its template's latch, and is finished when its own details are. A detail
runs while its process does, and completes once its operation has settled. -/

namespace Rungs

namespace Context

variable {σ : Type} (c : Context σ)

/-- The blocks of the details that an owner waits for. Unknown and unallocated details are left
out. -/
def conditionBlocks (kind : ConditionKind) (owner : Owner) : List Block :=
  (c.conditionIds kind owner.kind owner.recordId).filterMap fun id =>
    (c.snapshot.detail? id).bind fun detail => c.snapshot.block? .detail detail.id

/-- The blocks whose completion finishes a process: those of its finish conditions, or without any
those of all its details. -/
def finishBlocks (p : Process) : List Block :=
  match c.conditionBlocks .finish p.owner with
  | [] => (c.snapshot.detailsOfProcess p.id).filterMap fun d => c.snapshot.block? .detail d.id
  | blocks => blocks

end Context

def completeContacts (blocks : List Block) : List Contact :=
  blocks.map fun b => b.contact DetailRole.complete

/-- Goes on with the source, stays on by itself, and falls with the breaker. -/
def selfLatch (source target breaker : String) : Rung :=
  .start (.plain source) [.parallel (.plain target), .series (.inverted breaker)] (.out target)

/-- A process whose template is known and whose block holds the template's roles. -/
structure Cycle (σ : Type) where
  context : Context σ
  process : Process
  template : ProcessTemplate
  block : Block

namespace Cycle

variable {σ : Type} (y : Cycle σ)

def bit (role : ProcessRole) : String := y.block.bit role

def contact (role : ProcessRole) : Contact := y.block.contact role

/-- When the process may start by itself: always, after any of its start details for a conditional
branch, after all of them otherwise. -/
def startChains : List Chain :=
  let contacts := completeContacts (y.context.conditionBlocks .start y.process.owner)
  match contacts with
  | [] => [.single (.plain y.context.settings.alwaysOn)]
  | first :: rest =>
    if y.template = .conditionalBranch then contacts.map .single else [⟨first, rest⟩]

/-- Started by hand in test mode. -/
def debugChain : Chain :=
  ⟨.plain y.context.settings.testModeSignal, [.plain y.context.settings.debugStartSignal]⟩

def startRung : Rung :=
  (Rung.anyOf (y.startChains ++ [y.debugChain]) y.context.alwaysOff [] (.out (y.bit .start))).under
    y.process.name

/-- Runs until the process is finished. -/
def runUntilFinished (source : String) : Rung :=
  selfLatch source (y.bit .running) (y.bit .finished)

/-- The process waits for a timer before it runs, if there is exactly one. -/
def interlockWait : Emission σ Unit :=
  match y.context.timer y.process.owner .startWait with
  | .found timer =>
    .emitAll
      [.start (y.contact .start) [] (.delay timer.number timer.preset),
       y.runUntilFinished (Device.timer timer.number)]
  | .missing => do
    Emission.warn .noInterlockTimer
    Emission.emit (y.runUntilFinished (y.bit .start))
  | .duplicate count => do
    Emission.warn (.severalInterlockTimers count)
    Emission.emit (y.runUntilFinished (y.bit .start))

def running : Emission σ Unit :=
  match y.template with
  | .normal | .conditionalBranch => .emit (y.runUntilFinished (y.bit .start))
  | .resetAfter =>
    .emitAll
      [.start (y.contact .start) [] (.set (y.bit .running)),
       .start (y.contact .finished) [.parallel (.plain y.context.settings.resetSignal)]
        (.reset (y.bit .running))]
  | .subProcess =>
    .emit (selfLatch (y.bit .start) (y.bit .running) y.context.settings.resetSignal)
  | .interlockWait => y.interlockWait

def finishedRung : Rung :=
  .start (y.contact .running)
    ((completeContacts (y.context.finishBlocks y.process)).map .series ++
      [.parallel (y.contact .finished),
       .series (.inverted y.context.settings.resetSignal)])
    (.out (y.bit .finished))

def jumpRungs : List Rung :=
  (y.process.blockNumber.map fun number =>
    Rung.start (y.contact .running) [] (.jump (y.context.settings.jumpPointer number))).toList

def cycle : Emission σ Unit := do
  Emission.emit y.startRung
  y.running
  Emission.emit y.finishedRung
  Emission.emitAll y.jumpRungs

end Cycle

namespace Context

variable {σ : Type} (c : Context σ)

def process (p : Process) : Emission σ Unit :=
  match ProcessTemplate.ofCode? p.categoryCode with
  | none => .halt (.unknownProcessCategory p.categoryCode)
  | some template => do
    let block ← c.block p.owner template.roles
    (Cycle.mk c p template block).cycle

/-- The bit that says that a detail's operation has settled. An operation of unknown category or
without a block does not hold the detail up, and neither does an unknown one, with a warning. -/
def settledContact (d : Detail) : Emission σ (Option Contact) :=
  match d.operationId with
  | none => pure none
  | some id =>
    match c.snapshot.operation? id with
    | none => do
      Emission.warn (.unknownOperation id)
      return none
    | some o => pure <|
      (OperationTemplate.ofCode? o.categoryCode).bind fun _ =>
        (c.snapshot.block? .operation o.id).map fun b => b.contact OperationRole.stableGate

/-- On while the process runs and the details waited for are complete. -/
def detailStartRung (d : Detail) (block : Block) (processRunning : Contact) : Rung :=
  (Rung.start processRunning
    ((completeContacts (c.conditionBlocks .start d.owner)).map .series)
    (.out (block.bit DetailRole.start))).under d.name

def detailRunningRung (block : Block) (processRunning : Contact) : Rung :=
  .start (block.contact DetailRole.start)
    [.parallel (block.contact DetailRole.running),
     .series (block.inverted DetailRole.complete), .series processRunning]
    (.out (block.bit DetailRole.running))

def detailCompleteRung (block : Block) (processRunning : Contact) (settled : Option Contact) :
    Rung :=
  .start (block.contact DetailRole.running)
    ((settled.map Link.series).toList ++
      [.parallel (block.contact DetailRole.complete), .series processRunning])
    (.out (block.bit DetailRole.complete))

def detail (d : Detail) : Emission σ Unit :=
  if c.snapshot.hasProcess d.processId then do
    let block ← c.block d.owner DetailRole.all
    match c.snapshot.block? .process d.processId with
    | none => .halt (.unallocatedProcess d.processId)
    | some process =>
      let processRunning := process.contact ProcessRole.running
      Emission.emit (c.detailStartRung d block processRunning)
      Emission.emit (detailRunningRung block processRunning)
      let settled ← c.settledContact d
      Emission.emit (detailCompleteRung block processRunning settled)
  else .halt (.unknownProcess d.processId)

end Context

end Rungs
