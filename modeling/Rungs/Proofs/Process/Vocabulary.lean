import Rungs.Process.Cycle
import Rungs.Proofs.Generation
import Rungs.Proofs.Lookup
import Rungs.Proofs.Rung

/-! The vocabulary of a process and of a detail: what their rungs may read, and what they may do.
Both drive bits of their own block and read the completion of other details. A process also reads
the shared signals and jumps; a detail reads its process and its operation. -/

namespace Rungs

variable {σ : Type} {I : σ → Prop}

namespace Context

variable (c : Context σ)

/-- The block of some detail, which others may wait for. -/
def Awaits (b : Block) : Prop :=
  ∃ d ∈ c.snapshot.details, c.snapshot.block? .detail d.id = some b

theorem awaits_of_mem_conditionBlocks {kind : ConditionKind} {owner : Owner} {b : Block}
    (h : b ∈ c.conditionBlocks kind owner) : c.Awaits b := by
  obtain ⟨id, _, found⟩ := List.mem_filterMap.mp h
  obtain ⟨d, known, block⟩ := Option.bind_eq_some_iff.mp found
  exact ⟨d, (c.snapshot.mem_of_detail? known).1, block⟩

theorem awaits_of_mem_finishBlocks {p : Process} {b : Block} (h : b ∈ c.finishBlocks p) :
    c.Awaits b := by
  unfold finishBlocks at h
  split at h
  next =>
    obtain ⟨d, mem, block⟩ := List.mem_filterMap.mp h
    exact ⟨d, (c.snapshot.mem_detailsOfProcess.mp mem).1, block⟩
  next => exact c.awaits_of_mem_conditionBlocks h

end Context

theorem mem_completeContacts {blocks : List Block} {contact : Contact}
    (h : contact ∈ completeContacts blocks) :
    ∃ b ∈ blocks, contact = b.contact DetailRole.complete := by
  obtain ⟨b, mem, rfl⟩ := List.mem_map.mp h
  exact ⟨b, mem, rfl⟩

open Emission

/-! ## Processes -/

namespace Cycle

variable (y : Cycle σ)

/-- The timer that a process waits for before it runs. -/
def waitTimer : TimerLookup := y.context.timer y.process.owner .startWait

inductive Reads : Contact → Prop
  | own (role : ProcessRole) (negated : Bool) : Reads ⟨y.bit role, negated⟩
  | awaited {b : Block} (h : y.context.Awaits b) : Reads (b.contact DetailRole.complete)
  | signal {device : String} (negated : Bool)
      (h : device ∈ [y.context.settings.alwaysOn, y.context.settings.alwaysOff,
        y.context.settings.testModeSignal, y.context.settings.debugStartSignal,
        y.context.settings.resetSignal]) : Reads ⟨device, negated⟩
  | timer {t : Timer} (found : y.waitTimer = .found t) : Reads (.plain (Device.timer t.number))

inductive Acts : Action → Prop
  | out (role : ProcessRole) : Acts (.out (y.bit role))
  | set (role : ProcessRole) : Acts (.set (y.bit role))
  | reset (role : ProcessRole) : Acts (.reset (y.bit role))
  | delay {t : Timer} (found : y.waitTimer = .found t) : Acts (.delay t.number t.preset)
  | jump {number : UInt32} (h : y.process.blockNumber = some number) :
      Acts (.jump (y.context.settings.jumpPointer number))

/-- A rung within the vocabulary of the process. -/
abbrev Proper (r : Rung) : Prop := r.Within y.Reads y.Acts

theorem reads_awaited {blocks : List Block} (h : ∀ b ∈ blocks, y.context.Awaits b) :
    ∀ c ∈ completeContacts blocks, y.Reads c := by
  intro c mem
  obtain ⟨b, inside, rfl⟩ := mem_completeContacts mem
  exact .awaited (h b inside)

theorem reads_startChains : ∀ chain ∈ y.startChains, ∀ c ∈ chain.contacts, y.Reads c := by
  have awaited : ∀ c ∈ completeContacts (y.context.conditionBlocks .start y.process.owner),
      y.Reads c := y.reads_awaited fun _ => y.context.awaits_of_mem_conditionBlocks
  intro chain mem c inside
  simp only [startChains] at mem
  split at mem
  next =>
    rw [List.mem_singleton.mp mem] at inside
    rw [List.mem_singleton.mp inside]
    exact .signal false (by simp)
  next first rest eq =>
    split at mem
    next =>
      obtain ⟨single, known, rfl⟩ := List.mem_map.mp mem
      rw [List.mem_singleton.mp inside]
      exact awaited single known
    next =>
      rw [List.mem_singleton.mp mem] at inside
      exact awaited c (eq ▸ inside)

theorem proper_startRung : y.Proper y.startRung := by
  refine Rung.within_under (Rung.within_anyOf (fun chain mem c inside => ?_)
    (.signal false (by simp)) (fun l mem => by cases mem) (.out .start))
  rcases List.mem_append.mp mem with mem | mem
  · exact y.reads_startChains chain mem c inside
  · rw [List.mem_singleton.mp mem] at inside
    simp only [debugChain, Chain.contacts, List.mem_cons, List.not_mem_nil, or_false] at inside
    rcases inside with rfl | rfl
    · exact .signal false (by simp)
    · exact .signal false (by simp)

theorem proper_selfLatch {source breaker : String} {target : ProcessRole}
    (hs : y.Reads (.plain source)) (hb : y.Reads (.inverted breaker)) :
    y.Proper (selfLatch source (y.bit target) breaker) := by
  refine Rung.within_start hs (fun l mem => ?_) (.out target)
  simp only [List.mem_cons, List.not_mem_nil, or_false] at mem
  rcases mem with rfl | rfl
  · exact Reads.own target false
  · exact hb

theorem emits_interlockWait : Emits I y.Proper y.interlockWait fun _ => True := by
  have direct : y.Proper (y.runUntilFinished (y.bit .start)) :=
    y.proper_selfLatch (.own .start false) (.own .finished true)
  unfold interlockWait
  split
  next t found =>
    refine Emits.emitAll (fun r mem => ?_) trivial
    simp only [List.mem_cons, List.not_mem_nil, or_false] at mem
    rcases mem with rfl | rfl
    · exact Rung.within_start (.own .start false) (fun l mem => by cases mem) (.delay found)
    · exact y.proper_selfLatch (.timer found) (.own .finished true)
  next => exact (Emits.warn (Q := fun _ => True) trivial).bind fun _ _ => Emits.emit direct trivial
  next => exact (Emits.warn (Q := fun _ => True) trivial).bind fun _ _ => Emits.emit direct trivial

theorem emits_running : Emits I y.Proper y.running fun _ => True := by
  have start : y.Reads (.plain (y.bit .start)) := .own .start false
  unfold running
  split
  next => exact Emits.emit (y.proper_selfLatch start (.own .finished true)) trivial
  next => exact Emits.emit (y.proper_selfLatch start (.own .finished true)) trivial
  next =>
    refine Emits.emitAll (fun r mem => ?_) trivial
    simp only [List.mem_cons, List.not_mem_nil, or_false] at mem
    rcases mem with rfl | rfl
    · exact Rung.within_start start (fun l mem => by cases mem) (.set .running)
    · refine Rung.within_start (.own .finished false) (fun l mem => ?_) (.reset .running)
      rw [List.mem_singleton.mp mem]
      exact Reads.signal false (by simp)
  next => exact Emits.emit (y.proper_selfLatch start (.signal true (by simp))) trivial
  next => exact y.emits_interlockWait

theorem proper_finishedRung : y.Proper y.finishedRung := by
  refine Rung.within_start (.own .running false) (fun l mem => ?_) (.out .finished)
  rcases List.mem_append.mp mem with mem | mem
  · exact Rung.linkWithin_series
      (y.reads_awaited fun b => y.context.awaits_of_mem_finishBlocks (p := y.process)) l mem
  · simp only [List.mem_cons, List.not_mem_nil, or_false] at mem
    rcases mem with rfl | rfl
    · exact Reads.own .finished false
    · exact Reads.signal true (by simp)

theorem proper_jumpRungs : ∀ r ∈ y.jumpRungs, y.Proper r := by
  intro r mem
  rw [jumpRungs, Option.mem_toList, Option.map_eq_some_iff] at mem
  obtain ⟨number, known, rfl⟩ := mem
  exact Rung.within_start (.own .running false) (fun l mem => by cases mem) (.jump known)

/-- Every rung of a process is within its vocabulary. -/
theorem emits_cycle : Emits I y.Proper y.cycle fun _ => True :=
  (Emits.emit (Q := fun _ => True) y.proper_startRung trivial).bind fun _ _ =>
    y.emits_running.bind fun _ _ =>
      (Emits.emit (Q := fun _ => True) y.proper_finishedRung trivial).bind fun _ _ =>
        Emits.emitAll y.proper_jumpRungs trivial

end Cycle

/-! ## Details -/

namespace Context

variable (c : Context σ)

inductive DetailReads (d : Detail) (block : Block) : Contact → Prop
  | own (role : DetailRole) (negated : Bool) : DetailReads d block ⟨block.bit role, negated⟩
  | running {process : Block} (found : c.snapshot.block? .process d.processId = some process) :
      DetailReads d block (process.contact ProcessRole.running)
  | awaited {b : Block} (h : c.Awaits b) : DetailReads d block (b.contact DetailRole.complete)
  | settled {o : Operation} {t : OperationTemplate} {b : Block} (mem : o ∈ c.snapshot.operations)
      (known : OperationTemplate.ofCode? o.categoryCode = some t)
      (found : c.snapshot.block? .operation o.id = some b) :
      DetailReads d block (b.contact OperationRole.stableGate)

inductive DetailActs (block : Block) : Action → Prop
  | out (role : DetailRole) : DetailActs block (.out (block.bit role))

/-- A rung within the vocabulary of the detail. -/
abbrev DetailProper (d : Detail) (block : Block) (r : Rung) : Prop :=
  r.Within (c.DetailReads d block) (DetailActs block)

variable {c} {d : Detail} {block : Block}

theorem proper_detailStartRung {running : Contact} (hr : c.DetailReads d block running) :
    c.DetailProper d block (c.detailStartRung d block running) := by
  refine Rung.within_under (Rung.within_start hr (Rung.linkWithin_series fun contact mem => ?_)
    (.out .start))
  obtain ⟨b, inside, rfl⟩ := mem_completeContacts mem
  exact .awaited (c.awaits_of_mem_conditionBlocks inside)

theorem proper_detailRunningRung {running : Contact} (hr : c.DetailReads d block running) :
    c.DetailProper d block (detailRunningRung block running) := by
  refine Rung.within_start (.own .start false) (fun l mem => ?_) (.out .running)
  simp only [List.mem_cons, List.not_mem_nil, or_false] at mem
  rcases mem with rfl | rfl | rfl
  · exact DetailReads.own .running false
  · exact DetailReads.own .complete true
  · exact hr

theorem proper_detailCompleteRung {running : Contact} {settled : Option Contact}
    (hr : c.DetailReads d block running)
    (hs : ∀ contact, settled = some contact → c.DetailReads d block contact) :
    c.DetailProper d block (detailCompleteRung block running settled) := by
  refine Rung.within_start (.own .running false) (fun l mem => ?_) (.out .complete)
  rcases List.mem_append.mp mem with mem | mem
  · rw [Option.mem_toList, Option.map_eq_some_iff] at mem
    obtain ⟨contact, known, rfl⟩ := mem
    exact hs contact known
  · simp only [List.mem_cons, List.not_mem_nil, or_false] at mem
    rcases mem with rfl | rfl
    · exact DetailReads.own .complete false
    · exact hr

theorem emits_settledContact : Emits I (c.DetailProper d block) (c.settledContact d) fun settled =>
    ∀ contact, settled = some contact → c.DetailReads d block contact := by
  unfold settledContact
  split
  next => exact Emits.pure nofun
  next id =>
    split
    next => exact (Emits.warn (Q := fun _ => True) trivial).bind fun _ _ => Emits.pure nofun
    next o known =>
      refine Emits.pure fun contact eq => ?_
      obtain ⟨t, template, found⟩ := Option.bind_eq_some_iff.mp eq
      obtain ⟨b, block, rfl⟩ := Option.map_eq_some_iff.mp found
      exact .settled (c.snapshot.mem_of_operation? known).1 template block

/-- The rungs of a detail once its block and its process are known. -/
def detailRungs (c : Context σ) (d : Detail) (block : Block) (running : Contact) :
    Emission σ Unit := do
  Emission.emit (c.detailStartRung d block running)
  Emission.emit (detailRunningRung block running)
  let settled ← c.settledContact d
  Emission.emit (detailCompleteRung block running settled)

theorem detail_eq (c : Context σ) (d : Detail) : c.detail d =
    if c.snapshot.hasProcess d.processId then
      c.block d.owner DetailRole.all >>= fun block =>
        match c.snapshot.block? .process d.processId with
        | none => .halt (.unallocatedProcess d.processId)
        | some process => c.detailRungs d block (process.contact ProcessRole.running)
    else .halt (.unknownProcess d.processId) := rfl

/-- Every rung of a detail is within its vocabulary. -/
theorem emits_detailRungs {running : Contact} (hr : c.DetailReads d block running) :
    Emits I (c.DetailProper d block) (c.detailRungs d block running) fun _ => True :=
  (Emits.emit (Q := fun _ => True) (proper_detailStartRung hr) trivial).bind fun _ _ =>
    (Emits.emit (Q := fun _ => True) (proper_detailRunningRung hr) trivial).bind fun _ _ =>
      emits_settledContact.bind fun _ hs => Emits.emit (proper_detailCompleteRung hr hs) trivial

/-! ## Entities -/

variable (c) {p : Process}

/-- The process's class is known, and its block holds the roles of the class. -/
def ProcessFits (p : Process) : Prop :=
  ∃ t b, ProcessTemplate.ofCode? p.categoryCode = some t ∧ c.Fits p.owner t.roles b

/-- A rung that the process may have contributed. -/
def ProcessRung (p : Process) (r : Rung) : Prop :=
  ∃ t b, ProcessTemplate.ofCode? p.categoryCode = some t ∧ c.Fits p.owner t.roles b ∧
    (Cycle.mk c p t b).Proper r

/-- A rung that the detail may have contributed. -/
def DetailRung (d : Detail) (r : Rung) : Prop :=
  ∃ b, c.snapshot.hasProcess d.processId = true ∧ c.Fits d.owner DetailRole.all b ∧
    c.DetailProper d b r

theorem emits_process : (c.process p).Emits I (c.ProcessRung p) fun _ => c.ProcessFits p := by
  unfold process
  split
  next => exact Emits.halt
  next t known =>
    refine (c.emits_block p.owner t.roles).bind fun b fits => ?_
    exact (Cycle.emits_cycle ⟨c, p, t, b⟩).weaken (fun r proper => ⟨t, b, known, fits, proper⟩)
      fun _ _ => ⟨t, b, known, fits⟩

theorem emits_detail : (c.detail d).Emits I (c.DetailRung d) fun _ =>
    ∃ b, c.Fits d.owner DetailRole.all b := by
  rw [detail_eq]
  refine Emits.ite (fun owned => ?_) fun _ => Emits.halt
  refine (c.emits_block d.owner DetailRole.all).bind fun b fits => ?_
  split
  next => exact Emits.halt
  next process found =>
    exact (emits_detailRungs (.running found)).weaken (fun r proper => ⟨b, owned, fits, proper⟩)
      fun _ _ => ⟨b, fits⟩

end Context

end Rungs
