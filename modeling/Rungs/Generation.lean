import Rungs.Operation.Sequence
import Rungs.Cylinder.Output
import Rungs.Process.Cycle
import Rungs.Program
import Rungs.IoTable

/-! Generation of a whole program: operations, cylinders, processes and details, each entity for
itself and in order. An entity that stops keeps what it had written and leaves the others alone. -/

namespace Rungs

/-- Generates one entity after another; the memory runs through all of them. -/
def synthesizeEach {σ α : Type} (owner : α → Owner) (build : α → Emission σ Unit) :
    List α → σ → Synthesis × σ
  | [], memory => ({}, memory)
  | x :: xs, memory =>
    let outcome := (build x).run memory
    let rest := synthesizeEach owner build xs outcome.memory
    (outcome.synthesis (owner x) ++ rest.1, rest.2)

namespace Snapshot

/-- The details of all processes in their order, then those without a process. -/
def sortedDetails (s : Snapshot) : List Detail :=
  (s.sortedProcesses.flatMap fun p => s.detailsOfProcess p.id) ++ s.orphanDetails

end Snapshot

namespace Context

variable {σ : Type} (c : Context σ)

def operations : σ → Synthesis × σ :=
  synthesizeEach Operation.owner c.operation c.snapshot.sortedOperations

def cylinders : σ → Synthesis × σ :=
  synthesizeEach Cylinder.owner c.cylinder c.snapshot.sortedCylinders

def processes : σ → Synthesis × σ :=
  synthesizeEach Process.owner c.process c.snapshot.sortedProcesses

def details : σ → Synthesis × σ :=
  synthesizeEach Detail.owner c.detail c.snapshot.sortedDetails

end Context

structure Output where
  program : Program := {}
  diagnostics : List Diagnostic := []
deriving DecidableEq, Repr, Inhabited

/-- Collects the sections of a program in the order in which they are generated. -/
def Output.ofSections (parts : List (EntityKind × Synthesis)) : Output where
  program := parts.foldl (fun p part => p.push part.1 part.2.rows) {}
  diagnostics := parts.flatMap fun part => part.2.diagnostics

/-- What stays the same from one generation to the next. -/
structure Service (σ : Type) where
  settings : Settings
  resolver : Resolver σ
  conditionIds : ConditionKind → EntityKind → Int32 → List Int32

namespace Service

variable {σ : Type} (v : Service σ)

def context (s : Snapshot) : Context σ := ⟨v.settings, v.resolver, v.conditionIds, s⟩

def generate (s : Snapshot) (memory : σ) : Output × σ :=
  let c := v.context s
  let (operations, memory) := c.operations memory
  let (cylinders, memory) := c.cylinders memory
  let (processes, memory) := c.processes memory
  let (details, memory) := c.details memory
  (.ofSections [(.operation, operations), (.cylinder, cylinders), (.process, processes),
    (.detail, details)], memory)

/-- Generates for one snapshot after another, without forgetting. -/
def runs : List Snapshot → σ → List Output × σ
  | [], memory => ([], memory)
  | s :: rest, memory =>
    let first := v.generate s memory
    let others := runs rest first.2
    (first.1 :: others.1, others.2)

/-- The service of a table of points and a table of conditions. -/
def ofTables (points : IoTable) (conditions : List Condition) (settings : Settings) :
    Service (List Choice) :=
  ⟨settings, points.resolver, Rungs.conditionIds conditions⟩

end Service

/-- Generates with the points and conditions of the snapshot itself. -/
def Snapshot.generate (s : Snapshot) (settings : Settings) : Output :=
  ((Service.ofTables { points := s.points } s.conditions settings).generate s []).1

end Rungs
