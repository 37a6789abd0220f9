import Rungs.Proofs.Process.Drivers

/-! The bits of a process as equations over one scan. The start says what the process waits for, the
running bit is latched from the start or from the timer behind it, the finished bit from the
completion of the process's details. Start and finish are written by one rung each; between them the
rungs of the running bit leave all other bits alone (`Cycle.scans_running`), so old and new values
stand to each other as the rungs say (`Context.process_equations`). -/

namespace Rungs

/-! ## What a process waits for -/

/-- The bit that says that a detail is complete. An unknown detail has none, and neither has one
without a block. -/
def Snapshot.completion? (s : Snapshot) (id : Int32) : Option String :=
  (s.detail? id).bind fun detail =>
    (s.block? .detail detail.id).map fun b => b.bit DetailRole.complete

namespace Context

variable {σ : Type} (c : Context σ)

/-- The completions that an owner waits for, in the order of its conditions. -/
def awaited (kind : ConditionKind) (owner : Owner) : List String :=
  (c.conditionIds kind owner.kind owner.recordId).filterMap c.snapshot.completion?

/-- The completions that finish a process: those of its finish conditions, or without any those of
its own details. -/
def finishing (p : Process) : List String :=
  match c.awaited .finish p.owner with
  | [] => (c.snapshot.detailsOfProcess p.id).filterMap fun d =>
      (c.snapshot.block? .detail d.id).map fun b => b.bit DetailRole.complete
  | completions => completions

/-- Whether a process may start by itself: always if it waits for nothing, for a conditional branch
after any of the details that it waits for, and else after all of them. -/
def ready (p : Process) (t : ProcessTemplate) (d : Devices) : Bool :=
  match c.awaited .start p.owner with
  | [] => d.bit c.settings.alwaysOn
  | completions =>
    if t = .conditionalBranch then completions.any d.bit else completions.all d.bit

/-- What sets a process running: its start, or the one timer that an interlock waits for. -/
def trigger (p : Process) (t : ProcessTemplate) (b : Block) : String :=
  if t = .interlockWait then
    match c.timer p.owner .startWait with
    | .found timer => Device.timer timer.number
    | _ => b.bit ProcessRole.start
  else b.bit ProcessRole.start

end Context

/-- What takes the running bit off, given the finished bit and the reset signal. -/
def ProcessTemplate.stops (t : ProcessTemplate) (finished reset : Bool) : Bool :=
  match t with
  | .normal | .conditionalBranch | .interlockWait => finished
  | .resetAfter => finished || reset
  | .subProcess => reset

namespace Context

variable {σ : Type} (c : Context σ)

/-- The devices that a process reads after it has written some of its own bits. -/
def readLate (p : Process) : List String := c.settings.resetSignal :: c.finishing p

/-- The bits of a process, what it reads late, and the timers in its rows are different devices. -/
structure Separate (p : Process) (b : Block) (rows : List Row) : Prop where
  inputs : ∀ role : ProcessRole, b.bit role ∉ c.readLate p
  timers : ∀ role : ProcessRole, b.bit role ∉ timersOf rows
  untimed : ∀ x ∈ c.readLate p, x ∉ timersOf rows

/-- What a scan makes of the bits of a process. -/
structure ProcessEquations (p : Process) (t : ProcessTemplate) (b : Block) (d e : Devices) :
    Prop where
  start : e.bit (b.bit ProcessRole.start) =
    (c.ready p t d || d.bit c.settings.testModeSignal && d.bit c.settings.debugStartSignal)
  trigger : e.bit (c.trigger p t b) = true → e.bit (b.bit ProcessRole.start) = true
  running : e.bit (b.bit ProcessRole.running) =
    ((e.bit (c.trigger p t b) || d.bit (b.bit ProcessRole.running)) &&
      !t.stops (d.bit (b.bit ProcessRole.finished)) (d.bit c.settings.resetSignal))
  finished : e.bit (b.bit ProcessRole.finished) =
    ((e.bit (b.bit ProcessRole.running) && (c.finishing p).all d.bit ||
      d.bit (b.bit ProcessRole.finished)) && !d.bit c.settings.resetSignal)

/-! ## Conditions -/

variable {c} {d e : Devices}

theorem all_reads_completeContacts {blocks : List Block} :
    (completeContacts blocks).all (·.reads d) =
      (blocks.map fun b => b.bit DetailRole.complete).all d.bit := by
  simp [completeContacts, Block.reads_contact, Function.comp_def]

theorem awaited_eq (kind : ConditionKind) (owner : Owner) :
    c.awaited kind owner =
      (c.conditionBlocks kind owner).map fun b => b.bit DetailRole.complete := by
  rw [awaited, conditionBlocks, List.map_filterMap]
  congr 1
  funext id
  rw [Snapshot.completion?, Option.map_bind]
  rfl

theorem finishing_eq (p : Process) :
    c.finishing p = (c.finishBlocks p).map fun b => b.bit DetailRole.complete := by
  rw [finishing, finishBlocks, awaited_eq]
  cases c.conditionBlocks .finish p.owner with
  | nil => exact List.map_filterMap.symm
  | cons b rest => rfl

end Context

/-! ## Rungs -/

theorem scans_selfLatch {source target breaker : String} {d e : Devices} :
    (selfLatch source target breaker).Scans d e ↔
      e = d.setBit target ((d.bit source || d.bit target) && !d.bit breaker) := by
  rw [selfLatch, Rung.scans_start]
  simp [Rung.linksRun_parallel, Rung.linksRun_series, Rung.linksRun_last, Action.run]

namespace Cycle

open Emission

variable {σ : Type} {y : Cycle σ} {d e f : Devices} {m : σ}

theorem bit_injective {p q : ProcessRole} (h : y.bit p = y.bit q) : p = q :=
  Block.bit_injective (fun _ _ => ProcessRole.offset_injective) h

theorem bit_ne {p q : ProcessRole} (h : p ≠ q) : y.bit p ≠ y.bit q := mt bit_injective h

theorem reads_contact {role : ProcessRole} : (y.contact role).reads d = d.bit (y.bit role) :=
  Block.reads_contact

theorem any_startChains : y.startChains.any (·.holds d) =
    y.context.ready y.process y.template d := by
  rw [startChains, Context.ready, Context.awaited_eq]
  cases y.context.conditionBlocks .start y.process.owner with
  | nil => simp [completeContacts, Chain.holds, Chain.single, Chain.contacts]
  | cons b rest =>
    simp only [completeContacts, List.map_cons]
    split
    · simp [Chain.holds, Chain.single, Chain.contacts, Block.reads_contact, Function.comp_def]
    · simp [Chain.holds, Chain.contacts, Block.reads_contact, Function.comp_def]

theorem scans_startRung : y.startRung.Scans d e ↔ e = d.setBit (y.bit .start)
    (y.context.ready y.process y.template d ||
      d.bit y.context.settings.testModeSignal && d.bit y.context.settings.debugStartSignal) := by
  have some : y.startChains ++ [y.debugChain] ≠ [] := by simp
  rw [startRung, Rung.scans_under, Rung.scans_anyOf, if_neg some, List.any_append, any_startChains]
  simp [Rung.linksRun_last, Action.run, debugChain, Chain.holds, Chain.contacts]

theorem scans_finishedRung : y.finishedRung.Scans d e ↔ e = d.setBit (y.bit .finished)
    ((d.bit (y.bit .running) && (y.context.finishing y.process).all d.bit ||
      d.bit (y.bit .finished)) && !d.bit y.context.settings.resetSignal) := by
  rw [finishedRung, Rung.scans_start, List.append_assoc]
  simp only [List.cons_append, List.nil_append, Rung.linksRun_allSeries, Rung.linksRun_parallel,
    Rung.linksRun_series, Rung.linksRun_last, reads_contact, Contact.reads_inverted,
    Context.all_reads_completeContacts, ← Context.finishing_eq, Action.run]
  simp

/-! ## The running bit -/

/-- The device that sets the process running. -/
abbrev trigger (y : Cycle σ) : String := y.context.trigger y.process y.template y.block

theorem trigger_eq_start (h : y.template ≠ .interlockWait ∨ ∀ t, y.waitTimer ≠ .found t) :
    y.trigger = y.bit .start := by
  unfold trigger Context.trigger
  split
  next interlock =>
    split
    next t found => exact absurd found (h.resolve_left (fun other => other interlock) t)
    next => rfl
  next => rfl

theorem trigger_eq_timer {t : Timer} (h : y.template = .interlockWait)
    (found : y.waitTimer = .found t) : y.trigger = Device.timer t.number := by
  rw [waitTimer] at found
  rw [trigger, Context.trigger, if_pos h, found]

/-- What the rungs of the running bit make of it. -/
structure Runs (y : Cycle σ) (d e : Devices) : Prop where
  apart : y.trigger ≠ y.bit .finished
  begun : e.bit y.trigger = true → d.bit (y.bit .start) = true
  running : e.bit (y.bit .running) = ((e.bit y.trigger || d.bit (y.bit .running)) &&
    !y.template.stops (d.bit (y.bit .finished)) (d.bit y.context.settings.resetSignal))

/-- Latched from the start itself. -/
theorem Runs.of_selfLatch {breaker : String} (direct : y.trigger = y.bit .start)
    (stops : y.template.stops (d.bit (y.bit .finished)) (d.bit y.context.settings.resetSignal) =
      d.bit breaker)
    (scan : Rung.AllScan [selfLatch (y.bit .start) (y.bit .running) breaker] d e) :
    y.Runs d e := by
  rw [Rung.allScan_single, scans_selfLatch] at scan
  have other : y.bit .start ≠ y.bit .running := bit_ne nofun
  have kept : e.bit (y.bit .start) = d.bit (y.bit .start) := by
    rw [scan, Devices.bit_setBit, if_neg other]
  refine ⟨?_, ?_, ?_⟩
  · rw [direct]
    exact bit_ne nofun
  · rw [direct, kept]
    exact id
  · rw [direct, kept, stops, scan, Devices.bit_setBit, if_pos rfl]

/-- Latched from a timer that runs while the start is on. -/
theorem Runs.of_delay {t : Timer} (timed : y.trigger = Device.timer t.number)
    (stops : y.template.stops (d.bit (y.bit .finished)) (d.bit y.context.settings.resetSignal) =
      d.bit (y.bit .finished))
    (apart : ∀ role : ProcessRole, y.bit role ≠ Device.timer t.number)
    (scan : Rung.AllScan [.start (y.contact .start) [] (.delay t.number t.preset),
      y.runUntilFinished (Device.timer t.number)] d e) : y.Runs d e := by
  rw [runUntilFinished, Rung.allScan_cons] at scan
  obtain ⟨f, waits, latch⟩ := scan
  rw [Rung.scans_direct, reads_contact] at waits
  rw [Rung.allScan_single, scans_selfLatch] at latch
  obtain ⟨free, waits⟩ := waits
  have others (role : ProcessRole) : f.bit (y.bit role) = d.bit (y.bit role) := by
    rw [waits, Action.run, Devices.bit_setBit, if_neg (apart role)]
  have timer : e.bit (Device.timer t.number) = (d.bit (y.bit .start) && free) := by
    rw [latch, Devices.bit_setBit, if_neg (apart .running).symm, waits, Action.run,
      Devices.bit_setBit, if_pos rfl]
  have kept : e.bit (Device.timer t.number) = f.bit (Device.timer t.number) := by
    rw [latch, Devices.bit_setBit, if_neg (apart .running).symm]
  refine ⟨timed ▸ (apart .finished).symm, ?_, ?_⟩
  · rw [timed, timer, Bool.and_eq_true]
    exact And.left
  · rw [timed, kept, stops, ← others .running, ← others .finished]
    rw [latch, Devices.bit_setBit, if_pos rfl]

/-- Set by the start, and reset after it by the finished bit or the reset signal. -/
theorem Runs.of_set (after : y.template = .resetAfter)
    (apart : y.context.settings.resetSignal ≠ y.bit .running)
    (scan : Rung.AllScan [.start (y.contact .start) [] (.set (y.bit .running)),
      .start (y.contact .finished) [.parallel (.plain y.context.settings.resetSignal)]
        (.reset (y.bit .running))] d e) : y.Runs d e := by
  have direct : y.trigger = y.bit .start := trigger_eq_start (.inl (by simp [after]))
  have start : y.bit .start ≠ y.bit .running := bit_ne (by decide)
  have finished : y.bit .finished ≠ y.bit .running := bit_ne (by decide)
  rw [Rung.allScan_cons] at scan
  obtain ⟨f, sets, resets⟩ := scan
  rw [Rung.allScan_single, Rung.scans_start] at resets
  simp only [Rung.scans_direct, reads_contact, Action.run, exists_const] at sets
  simp only [List.cons_append, List.nil_append, Rung.linksRun_parallel, Rung.linksRun_last,
    reads_contact, Contact.reads_plain, Action.run, exists_const, Prod.mk.injEq,
    exists_eq_left] at resets
  have set : f.bit (y.bit .running) = (d.bit (y.bit .start) || d.bit (y.bit .running)) := by
    rw [sets]
    cases d.bit (y.bit .start) <;> simp
  have before {x : String} (other : x ≠ y.bit .running) : f.bit x = d.bit x := by
    rw [sets]
    cases d.bit (y.bit .start) <;> simp [other]
  have reset : e.bit (y.bit .running) = (f.bit (y.bit .running) &&
      !(f.bit (y.bit .finished) || f.bit y.context.settings.resetSignal)) := by
    rw [resets]
    cases f.bit (y.bit .finished) || f.bit y.context.settings.resetSignal <;> simp
  have kept : e.bit (y.bit .start) = f.bit (y.bit .start) := by
    rw [resets]
    cases f.bit (y.bit .finished) || f.bit y.context.settings.resetSignal <;> simp [start]
  refine ⟨?_, ?_, ?_⟩
  · rw [direct]
    exact bit_ne (by decide)
  · rw [direct, kept, before start]
    exact id
  · rw [direct, kept, before start, reset, set, before finished, before apart, after]
    rfl

/-- Without a single timer of its own an interlock runs like any other process. -/
theorem Runs.of_interlockWait (interlock : y.template = .interlockWait)
    (clear : ∀ role, y.bit role ∉ timersOf (streamRows (y.interlockWait.run m).rungs))
    (scan : Rung.AllScan (y.interlockWait.run m).rungs d e) : y.Runs d e := by
  have stops : y.template.stops (d.bit (y.bit .finished))
      (d.bit y.context.settings.resetSignal) = d.bit (y.bit .finished) := by
    rw [interlock]
    rfl
  unfold interlockWait at clear scan
  split at scan
  next t found =>
    rw [found] at clear
    refine .of_delay (trigger_eq_timer interlock found) stops (fun role same => clear role ?_) scan
    have delays : Action.delay t.number t.preset ∈
        (Rung.start (y.contact .start) [] (.delay t.number t.preset)).actions :=
      List.mem_singleton.mpr rfl
    rw [same]
    exact Rung.mem_timersOf List.mem_cons_self delays
  next missing =>
    exact .of_selfLatch (trigger_eq_start (.inr fun t => by simp [waitTimer, missing])) stops scan
  next count several =>
    exact .of_selfLatch (trigger_eq_start (.inr fun t => by simp [waitTimer, several])) stops scan

theorem runs_running (clear : ∀ role, y.bit role ∉ timersOf (streamRows (y.running.run m).rungs))
    (apart : ∀ role, y.bit role ≠ y.context.settings.resetSignal)
    (scan : Rung.AllScan (y.running.run m).rungs d e) : y.Runs d e := by
  unfold running at clear scan
  split at scan
  next h =>
    exact .of_selfLatch (trigger_eq_start (.inl (by simp [h]))) (by rw [h]; rfl) scan
  next h =>
    exact .of_selfLatch (trigger_eq_start (.inl (by simp [h]))) (by rw [h]; rfl) scan
  next h => exact .of_set h (apart .running).symm scan
  next h =>
    exact .of_selfLatch (trigger_eq_start (.inl (by simp [h]))) (by rw [h]; rfl) scan
  next h =>
    rw [h] at clear
    exact .of_interlockWait h clear scan

/-! ## Jumps -/

theorem allScan_jumpRungs : Rung.AllScan y.jumpRungs d e ↔ e = d := by
  unfold jumpRungs
  cases y.process.blockNumber with
  | none => exact Rung.allScan_nil
  | some number => simp [Rung.allScan_single, Rung.scans_direct, Action.run]

/-! ## The cycle -/

theorem drives_running (y : Cycle σ) (m : σ) :
    drives (y.running.run m).rungs = y.drivenBits [.running] := by
  obtain ⟨runs, returns, drive⟩ := y.returns_running m
  rw [returns.rungs]
  exact drive

theorem rungs_cycle (y : Cycle σ) (m : σ) : (y.cycle.run m).rungs =
    [y.startRung] ++ ((y.running.run m).rungs ++ ([y.finishedRung] ++ y.jumpRungs)) := by
  obtain ⟨runs, returns, _⟩ := y.returns_running m
  rw [returns.rungs]
  exact (Returns.bind .emit (returns.bind (.bind .emit .emitAll))).rungs

theorem timersOf_running_subset :
    timersOf (streamRows (y.running.run m).rungs) ⊆
      timersOf (streamRows (y.cycle.run m).rungs) := by
  intro x mem
  rw [rungs_cycle, streamRows_append, timersOf_append, streamRows_append, timersOf_append]
  exact List.mem_append_right _ (List.mem_append_left _ mem)

/-- The start, the rungs of the running bit, and the finish, as one scan finds them. -/
theorem scans_cycle (scan : Rung.AllScan (y.cycle.run m).rungs d e) :
    ∃ f g, y.startRung.Scans d f ∧ Rung.AllScan (y.running.run m).rungs f g ∧
      y.finishedRung.Scans g e := by
  rw [rungs_cycle] at scan
  obtain ⟨f, starts, scan⟩ := Rung.allScan_append.mp scan
  obtain ⟨g, turns, scan⟩ := Rung.allScan_append.mp scan
  obtain ⟨h, finishes, jumps⟩ := Rung.allScan_append.mp scan
  rw [allScan_jumpRungs] at jumps
  subst jumps
  exact ⟨f, g, Rung.allScan_single.mp starts, turns, Rung.allScan_single.mp finishes⟩

theorem equations_cycle
    (separate : y.context.Separate y.process y.block (streamRows (y.cycle.run m).rungs))
    (scan : Rung.AllScan (y.cycle.run m).rungs d e) :
    y.context.ProcessEquations y.process y.template y.block d e := by
  obtain ⟨f, g, starts, turns, finishes⟩ := scans_cycle scan
  rw [scans_startRung] at starts
  rw [scans_finishedRung] at finishes
  have untimed (role : ProcessRole) : y.bit role ∉ timersOf (streamRows (y.running.run m).rungs) :=
    fun mem => separate.timers role (timersOf_running_subset mem)
  have reset : y.context.settings.resetSignal ∈ y.context.readLate y.process :=
    List.mem_cons_self
  have first {x : String} (other : x ≠ y.bit .start) : f.bit x = d.bit x := by
    rw [starts, Devices.bit_setBit, if_neg other]
  have last {x : String} (other : x ≠ y.bit .finished) : e.bit x = g.bit x := by
    rw [finishes, Devices.bit_setBit, if_neg other]
  have middle {x : String} (timer : x ∉ timersOf (streamRows (y.running.run m).rungs))
      (other : x ≠ y.bit .running) : g.bit x = f.bit x :=
    turns.frame_of_drives (y.drives_running m) timer
      fun role mem => List.mem_singleton.mp mem ▸ other
  -- what the process reads late is still as the scan found it
  have apart {x : String} (mem : x ∈ y.context.readLate y.process) (role : ProcessRole) :
      x ≠ y.bit role := by
    rintro rfl
    exact separate.inputs role mem
  have input {x : String} (mem : x ∈ y.context.readLate y.process) : g.bit x = d.bit x := by
    rw [middle (fun timed => separate.untimed x mem (timersOf_running_subset timed))
      (apart mem .running), first (apart mem .start)]
  have runs : y.Runs f g := runs_running untimed (fun role => (apart reset role).symm) turns
  have start : e.bit (y.bit .start) = f.bit (y.bit .start) := by
    have kept : g.bit (y.bit .start) = f.bit (y.bit .start) :=
      middle (untimed .start) (bit_ne nofun)
    rw [last (bit_ne (p := .start) nofun), kept]
  have running : e.bit (y.bit .running) = g.bit (y.bit .running) := last (bit_ne nofun)
  have stood : f.bit (y.bit .finished) = d.bit (y.bit .finished) := first (bit_ne nofun)
  have finished : g.bit (y.bit .finished) = d.bit (y.bit .finished) := by
    rw [middle (untimed .finished) (bit_ne nofun), stood]
  have all : (y.context.finishing y.process).all g.bit =
      (y.context.finishing y.process).all d.bit := by
    rw [Bool.eq_iff_iff, List.all_eq_true, List.all_eq_true]
    refine forall₂_congr fun x mem => ?_
    rw [input (List.mem_cons_of_mem _ mem)]
  have triggered : e.bit y.trigger = g.bit y.trigger := last runs.apart
  refine ⟨?_, ?_, ?_, ?_⟩
  · show e.bit (y.bit .start) = _
    rw [start, starts, Devices.bit_setBit, if_pos rfl]
  · show e.bit y.trigger = true → e.bit (y.bit .start) = true
    rw [triggered, start]
    exact runs.begun
  · have before : f.bit (y.bit .running) = d.bit (y.bit .running) := first (bit_ne nofun)
    show e.bit (y.bit .running) = ((e.bit y.trigger || d.bit (y.bit .running)) &&
      !y.template.stops (d.bit (y.bit .finished)) (d.bit y.context.settings.resetSignal))
    rw [running, triggered, runs.running, before, stood, first (apart reset .start)]
  · show e.bit (y.bit .finished) = ((e.bit (y.bit .running) &&
      (y.context.finishing y.process).all d.bit || d.bit (y.bit .finished)) &&
        !d.bit y.context.settings.resetSignal)
    rw [running, ← all, ← finished, ← input reset]
    rw [finishes, Devices.bit_setBit, if_pos rfl]

end Cycle

/-- A process implements its latches. If it is not stopped, its class is known and it has a block,
and a scan of its rows finds the start, the running bit and the finished bit as the equations of the
class say, from whatever state it starts. -/
theorem Context.process_equations {σ : Type} (c : Context σ) (p : Process) (m : σ)
    (rows : List Row) (generated : rows = (((c.process p).run m).synthesis p.owner).rows)
    (ok : ((c.process p).run m).result = .ok ()) :
    ∃ t b, ProcessTemplate.ofCode? p.categoryCode = some t ∧
      c.snapshot.block? .process p.id = some b ∧
        (c.Separate p b rows → (∀ s, ∃ u, Scan.Runs rows s u) ∧
          ∀ s u, Scan.Runs rows s u → c.ProcessEquations p t b s.devices u.devices) := by
  have stream : rows = streamRows ((c.process p).run m).rungs := generated
  rcases c.process_runs p m with ⟨_, f, stopped⟩ | ⟨t, b, known, fits, runs⟩
  · rw [stopped] at ok
    cases ok
  · refine ⟨t, b, known, fits.found, fun separate => ?_⟩
    rw [runs] at stream
    rw [stream] at separate ⊢
    refine ⟨fun s => Scan.exists_runs _ s, fun s u run => ?_⟩
    exact Cycle.equations_cycle separate (Scan.allScan_iff_runs.mpr ⟨u.stack, run⟩)

/-- A process that waits for a detail and then for its timer. -/
def Process.interlocked : Process where
  id := 1
  categoryCode := 5

def Snapshot.interlocked : Snapshot where
  processes := [.interlocked]
  details :=
    [{ id := 1, processId := 1 }, { id := 2, processId := 1 }, { id := 3, processId := 2 }]
  timers :=
    [{ id := 1, categoryId := 1, kind := .process, recordIds := [1], number := 1, preset := 3 }]
  allocations :=
    [⟨.process, 1, "L", 0, 3⟩, ⟨.detail, 1, "L", 10, 3⟩, ⟨.detail, 2, "L", 20, 3⟩,
     ⟨.detail, 3, "L", 30, 3⟩]

namespace Snapshot.Interlocked

/-- The first of the conditions names no detail. -/
def conditions : List Condition :=
  [⟨.start, .process, 1, 9⟩, ⟨.start, .process, 1, 3⟩, ⟨.finish, .process, 1, 1⟩,
   ⟨.finish, .process, 1, 2⟩]

def context : Context Unit where
  settings := {}
  resolver := { resolve := fun _ m => (none, m), range := fun _ _ _ m => ([], m) }
  conditionIds := conditionIds conditions
  snapshot := interlocked

def rows : List Row :=
  (((context.process .interlocked).run ()).synthesis Process.interlocked.owner).rows

def block : Block := ⟨⟨.process, 1, "L", 0, 3⟩⟩

theorem separate : context.Separate .interlocked block rows where
  inputs := fun role => by cases role <;> decide +kernel
  timers := fun role => by cases role <;> decide +kernel
  untimed := by decide +kernel

end Snapshot.Interlocked

theorem process_equations_interlocked : (∀ s, ∃ u, Scan.Runs Snapshot.Interlocked.rows s u) ∧
    ∀ s u, Scan.Runs Snapshot.Interlocked.rows s u →
      u.devices.bit "L0" =
          (s.devices.bit "L32" || s.devices.bit "M5003" && s.devices.bit "M5004") ∧
        (u.devices.bit "T1" = true → u.devices.bit "L0" = true) ∧
        u.devices.bit "L1" =
          ((u.devices.bit "T1" || s.devices.bit "L1") && !s.devices.bit "L2") ∧
        u.devices.bit "L2" =
          ((u.devices.bit "L1" && (s.devices.bit "L12" && s.devices.bit "L22") ||
            s.devices.bit "L2") && !s.devices.bit "M5001") := by
  obtain ⟨t, b, known, found, equations⟩ := Snapshot.Interlocked.context.process_equations
    .interlocked () Snapshot.Interlocked.rows rfl rfl
  have template : some t = some .interlockWait := known.symm
  have block : some b = some Snapshot.Interlocked.block := found.symm
  cases template
  cases block
  obtain ⟨scannable, scans⟩ := equations Snapshot.Interlocked.separate
  refine ⟨scannable, fun s u run => ?_⟩
  obtain ⟨start, waits, running, finished⟩ := scans s u run
  have bits : Snapshot.Interlocked.block.bit ProcessRole.start = "L0" ∧
      Snapshot.Interlocked.block.bit ProcessRole.running = "L1" ∧
        Snapshot.Interlocked.block.bit ProcessRole.finished = "L2" := by decide +kernel
  have trigger : Snapshot.Interlocked.context.trigger .interlocked .interlockWait
      Snapshot.Interlocked.block = "T1" := by decide +kernel
  have awaited : Snapshot.Interlocked.context.awaited .start Process.interlocked.owner =
      ["L32"] := by decide +kernel
  have finishing : Snapshot.Interlocked.context.finishing .interlocked = ["L12", "L22"] := by
    decide +kernel
  simp only [bits, trigger, finishing, Context.ready, awaited, List.all_cons, List.all_nil,
    Bool.and_true] at start waits running finished
  exact ⟨start, waits, running, finished⟩

end Rungs
