import Rungs.Proofs.Drivers
import Rungs.Proofs.Process.Vocabulary

/-! What the rungs of a process or a detail drive: every role of its block once, but the running bit
of a process that is reset afterwards is set by one rung and reset by another. Both either stop
before their first rung or come to their end. -/

namespace Rungs

open Emission

variable {σ : Type}

/-- The commands by which a process drives its roles. -/
def ProcessTemplate.coils (t : ProcessTemplate) : ProcessRole → List Command
  | .running => if t = .resetAfter then [.set, .rst] else [.out]
  | .start | .finished => [.out]

def DetailRole.coils (_ : DetailRole) : List Command := [.out]

/-- The bit that says that a detail's operation has settled. The operation must be known, of a known
class and have a block. -/
def Snapshot.settledBit? (s : Snapshot) (d : Detail) : Option String :=
  d.operationId.bind fun id => (s.operation? id).bind fun o =>
    (OperationTemplate.ofCode? o.categoryCode).bind fun _ =>
      (s.block? .operation o.id).map fun b => b.bit OperationRole.stableGate

namespace Cycle

variable (y : Cycle σ) (m : σ)

def drivenBits (roles : List ProcessRole) : List (String × Command) :=
  y.block.drives y.template.coils roles

theorem drives_startRung : drives [y.startRung] = y.drivenBits [.start] := by
  rw [drives_cons, startRung, Rung.actions_under, Rung.actions_anyOf]
  rfl

theorem drives_finishedRung : drives [y.finishedRung] = y.drivenBits [.finished] := by
  have only : y.finishedRung.actions = [.out (y.bit .finished)] := by
    rw [finishedRung, Rung.actions_start, List.filterMap_append, Rung.action?_series]
    rfl
  rw [drives_cons, only]
  rfl

theorem drives_jumpRungs : drives y.jumpRungs = [] := by
  unfold jumpRungs
  cases y.process.blockNumber <;> rfl

theorem drivenBits_running (other : y.template ≠ .resetAfter) :
    y.drivenBits [.running] = [(y.bit .running, .out)] := by
  have coil : y.template.coils .running = [.out] := if_neg other
  simp [drivenBits, Block.drives, coil, bit]

theorem returns_interlockWait : ∃ rungs, Returns y.interlockWait m () rungs m ∧
    drives rungs = [(y.bit .running, .out)] := by
  unfold interlockWait
  split
  · exact ⟨_, .emitAll, rfl⟩
  · exact ⟨_, .bind .warn .emit, rfl⟩
  · exact ⟨_, .bind .warn .emit, rfl⟩

theorem returns_running : ∃ rungs, Returns y.running m () rungs m ∧
    drives rungs = y.drivenBits [.running] := by
  unfold running
  split
  next h =>
    rw [y.drivenBits_running (by simp [h])]
    exact ⟨_, .emit, rfl⟩
  next h =>
    rw [y.drivenBits_running (by simp [h])]
    exact ⟨_, .emit, rfl⟩
  next h =>
    have coils : y.template.coils .running = [.set, .rst] := if_pos h
    refine ⟨_, .emitAll, ?_⟩
    simp only [drivenBits, Block.drives, List.flatMap_singleton, coils]
    rfl
  next h =>
    rw [y.drivenBits_running (by simp [h])]
    exact ⟨_, .emit, rfl⟩
  next h =>
    rw [y.drivenBits_running (by simp [h])]
    exact y.returns_interlockWait m

/-- A process drives all its roles. -/
theorem returns_cycle : ∃ rungs, Returns y.cycle m () rungs m ∧
    drives rungs = y.drivenBits ProcessRole.all := by
  obtain ⟨runs, returns, drive⟩ := y.returns_running m
  have whole : y.drivenBits ProcessRole.all =
      y.drivenBits [.start] ++ (y.drivenBits [.running] ++ y.drivenBits [.finished]) := by
    rw [drivenBits, drivenBits, drivenBits, drivenBits, ← Block.drives_append,
      ← Block.drives_append]
    rfl
  refine ⟨_, .bind .emit (returns.bind (.bind .emit .emitAll)), ?_⟩
  rw [drives_append, drives_append, drives_append, y.drives_startRung, drive,
    y.drives_finishedRung, y.drives_jumpRungs, List.append_nil, whole]

end Cycle

namespace Context

variable (c : Context σ)

/-- A process is stopped before its first rung, or it runs its cycle. -/
theorem process_runs (p : Process) (m : σ) :
    (((c.process p).run m).rungs = [] ∧ ∃ f, ((c.process p).run m).result = .error f) ∨
      ∃ t b, ProcessTemplate.ofCode? p.categoryCode = some t ∧ c.Fits p.owner t.roles b ∧
        (c.process p).run m = (Cycle.mk c p t b).cycle.run m := by
  unfold process
  split
  next => exact .inl ⟨rfl, _, rfl⟩
  next t known =>
    rcases c.block_cases p.owner t.roles with ⟨f, halts⟩ | ⟨b, returns, fits⟩
    · rw [halts]
      exact .inl ⟨rfl, f, rfl⟩
    · rw [returns, Emission.pure_bind]
      exact .inr ⟨t, b, known, fits, rfl⟩

/-- A process is stopped before its first rung, or it drives all its roles. -/
theorem process_cases (p : Process) (m : σ) :
    (((c.process p).run m).rungs = [] ∧ ∃ f, ((c.process p).run m).result = .error f) ∨
      ∃ t b, ProcessTemplate.ofCode? p.categoryCode = some t ∧ c.Fits p.owner t.roles b ∧
        ((c.process p).run m).result = .ok () ∧
        drives ((c.process p).run m).rungs = b.drives t.coils t.roles := by
  rcases c.process_runs p m with stopped | ⟨t, b, known, fits, runs⟩
  · exact .inl stopped
  · obtain ⟨rungs, run, drive⟩ := Cycle.returns_cycle ⟨c, p, t, b⟩ m
    rw [runs, run.rungs, run.result]
    exact .inr ⟨t, b, known, fits, rfl, drive⟩

theorem returns_settledContact (d : Detail) (m : σ) : Returns (c.settledContact d) m
    ((c.snapshot.settledBit? d).map Contact.plain) [] m := by
  unfold settledContact Snapshot.settledBit?
  split
  next none =>
    rw [none]
    exact .pure
  next id named =>
    rw [named]
    split
    next unknown =>
      rw [Option.bind_some, unknown]
      exact .bind .warn .pure
    next o known =>
      rw [Option.bind_some, known, Option.bind_some]
      have contact : ((OperationTemplate.ofCode? o.categoryCode).bind fun _ =>
          (c.snapshot.block? .operation o.id).map fun b => b.bit OperationRole.stableGate).map
            Contact.plain = (OperationTemplate.ofCode? o.categoryCode).bind fun _ =>
              (c.snapshot.block? .operation o.id).map fun b =>
                b.contact OperationRole.stableGate := by
        cases OperationTemplate.ofCode? o.categoryCode with
        | none => rfl
        | some t => exact Option.map_map _ _ _
      rw [contact]
      exact .pure

theorem returns_detailRungs (d : Detail) (b : Block) (running : Contact) (m : σ) :
    ∃ rungs, Returns (c.detailRungs d b running) m () rungs m ∧
      drives rungs = b.drives DetailRole.coils DetailRole.all := by
  have found := c.returns_settledContact d m
  have start : drives [c.detailStartRung d b running] = b.drives DetailRole.coils [.start] := by
    rw [drives_cons, detailStartRung, Rung.actions_under, Rung.actions_start, Rung.action?_series]
    rfl
  have complete (settled : Option Contact) : drives [detailCompleteRung b running settled] =
      b.drives DetailRole.coils [.complete] := by
    cases settled <;> rfl
  refine ⟨_, .bind .emit (.bind .emit (found.bind .emit)), ?_⟩
  rw [drives_append, drives_append, drives_append, start, complete]
  rfl

/-- A detail is stopped before its first rung, or it follows the block of its process. -/
theorem detail_runs (d : Detail) (m : σ) :
    (((c.detail d).run m).rungs = [] ∧ ∃ f, ((c.detail d).run m).result = .error f) ∨
      ∃ b process, c.Fits d.owner DetailRole.all b ∧
        c.snapshot.block? .process d.processId = some process ∧
        (c.detail d).run m = (c.detailRungs d b (process.contact ProcessRole.running)).run m := by
  rw [detail_eq]
  split
  · rcases c.block_cases d.owner DetailRole.all with ⟨f, halts⟩ | ⟨b, returns, fits⟩
    · rw [halts]
      exact .inl ⟨rfl, f, rfl⟩
    · rw [returns, Emission.pure_bind]
      split
      next => exact .inl ⟨rfl, _, rfl⟩
      next process found => exact .inr ⟨b, process, fits, found, rfl⟩
  · exact .inl ⟨rfl, _, rfl⟩

/-- A detail is stopped before its first rung, or it drives all its roles. -/
theorem detail_cases (d : Detail) (m : σ) :
    (((c.detail d).run m).rungs = [] ∧ ∃ f, ((c.detail d).run m).result = .error f) ∨
      ∃ b, c.Fits d.owner DetailRole.all b ∧ ((c.detail d).run m).result = .ok () ∧
        drives ((c.detail d).run m).rungs = b.drives DetailRole.coils DetailRole.all := by
  rcases c.detail_runs d m with stopped | ⟨b, process, fits, _, runs⟩
  · exact .inl stopped
  · obtain ⟨rungs, run, drive⟩ := c.returns_detailRungs d b (process.contact ProcessRole.running) m
    rw [runs, run.rungs, run.result]
    exact .inr ⟨b, fits, rfl, drive⟩

end Context

end Rungs
