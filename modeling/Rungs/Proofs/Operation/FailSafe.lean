import Rungs.Proofs.Operation.Confirmation

/-! A sensor that cannot be found stops an operation where it stands. Where one point of the sensor
that a stage waits for has no address, neither that stage nor any later one comes on, however often
the rows are scanned. The point reads the signal that is always off, so the stage's latch is never
set; the later stages follow from it, and so does the hold, by which a retention could otherwise
enable its own run. -/

namespace Rungs

open Emission

namespace OperationRole

/-- The stages of an operation in the order in which they come about. -/
def stages : List OperationRole :=
  [.startLatch, .runEnable, .startDelay, .startConfirmed] ++
    ((List.finRange 4).map .speedStep ++ [.finishDetected, .deepSeat, .stableGate, .completion])

/-- A stage and all that come after it. -/
def onward (stage : OperationRole) : List OperationRole := stages.dropWhile (· != stage)

/-- The stages that may wait for a sensor. -/
def guarded : List OperationRole :=
  [.startLatch, .startConfirmed] ++ ((List.finRange 4).map .speedStep ++ [.finishDetected])

/-- Without the stage the role does not come on: it comes after the stage, or it is the hold, which
takes a confirmed start. -/
def Blocks (stage role : OperationRole) : Prop :=
  role ∈ stage.onward ∨ role = .hold ∧ .startConfirmed ∈ stage.onward

instance (stage role : OperationRole) : Decidable (stage.Blocks role) :=
  inferInstanceAs (Decidable (_ ∨ _))

section Order

variable {stage role : OperationRole}

/-- From a stage that waits for a sensor, the stages onward are those that do not lie before it. -/
theorem mem_onward_iff (h : stage ∈ guarded) (known : role ∈ stages) :
    role ∈ stage.onward ↔ stage.offset ≤ role.offset := by
  have table : ∀ stage ∈ guarded, ∀ role ∈ stages,
      role ∈ stage.onward ↔ stage.offset ≤ role.offset := by decide
  exact table stage h role known

theorem mem_stages_of_onward (h : role ∈ stage.onward) : role ∈ stages :=
  (List.dropWhile_sublist _).mem h

theorem mem_stages_of_guarded (h : stage ∈ guarded) : stage ∈ stages := by
  have table : ∀ stage ∈ guarded, stage ∈ stages := by decide
  exact table stage h

theorem Blocks.mem (h : stage.Blocks role) (other : role ≠ .hold) : role ∈ stage.onward :=
  h.resolve_right fun held => other held.1

/-- Only the stage that comes before the run can block the run, and then it blocks the hold too. -/
theorem Blocks.of_runEnable (h : stage ∈ guarded) (blocked : stage.Blocks .runEnable) :
    stage.Blocks .startLatch ∧ stage.Blocks .hold := by
  have table : ∀ stage ∈ guarded, stage.Blocks .runEnable →
      stage.Blocks .startLatch ∧ stage.Blocks .hold := by decide
  exact table stage h blocked

theorem Blocks.of_startDelay (h : stage ∈ guarded) (blocked : stage.Blocks .startDelay) :
    stage.Blocks .runEnable := by
  have table : ∀ stage ∈ guarded, stage.Blocks .startDelay → stage.Blocks .runEnable := by decide
  exact table stage h blocked

theorem onward_startDelay (h : stage ∈ guarded) (mem : .startLatch ∈ stage.onward) :
    .startDelay ∈ stage.onward := by
  have table : ∀ stage ∈ guarded, .startLatch ∈ stage.onward → .startDelay ∈ stage.onward := by
    decide
  exact table stage h mem

/-- Whatever waits for a sensor, the finish and all after it come later. -/
theorem blocks_closing (h : stage ∈ guarded) :
    ∀ role ∈ [finishDetected, deepSeat, stableGate, completion], stage.Blocks role := by
  have table : ∀ stage ∈ guarded, ∀ role ∈ [finishDetected, deepSeat, stableGate, completion],
      stage.Blocks role := by decide
  exact table stage h

end Order

end OperationRole

/-- A stage and the sensor that it waits for, with the number of points that the sensor has. -/
structure Guard where
  stage : OperationRole
  sensor : Option String
  count : Option UInt32 := none
deriving DecidableEq, Repr, Inhabited

namespace Sequencer

variable {σ : Type} (s : Sequencer σ)

def controlGuard : Guard := ⟨.startLatch, Text.configured? s.operation.control, none⟩

def startGuard : Guard :=
  ⟨.startConfirmed, Text.configured? s.operation.start, s.operation.sensorCount⟩

def stepGuard (step : Step) : Guard :=
  ⟨.speedStep step, Text.configured? s.operation.speedSensors[step.val]?, none⟩

def finishGuard : Guard :=
  ⟨.finishDetected, Text.configured? s.operation.finish, s.operation.sensorCount⟩

/-- The guards from some speed change points on. A point that has no timer of its own is skipped. -/
def guardsFrom (steps : List Step) : List Guard :=
  (steps.filter fun step => (s.timer (.speedChange step)).isFound).map s.stepGuard ++
    [s.finishGuard]

/-- The stages that wait for a sensor, in the order in which the sequence comes to them. -/
def guards : List Guard :=
  s.controlGuard :: s.startGuard :: s.guardsFrom s.template.steps

/-- The points that are looked up for a guard. A stage without a sensor waits for none. -/
def guardPoints (g : Guard) : Emission σ (List (String × Option String)) :=
  match g.sensor with
  | some name => s.context.sensorPoints s.operation.owner name g.count s.scope
  | none => pure []

def lookup (g : Guard) : Emission σ (OperationRole × List (String × Option String)) := do
  let points ← s.guardPoints g
  return (g.stage, points)

/-- What the sequence looks up for its stages, in order. A sequence that stops midway looks up no
further, but then its later stages have no rows. -/
def lookups : Emission σ (List (OperationRole × List (String × Option String))) :=
  s.guards.mapM s.lookup

/-- From this memory on, a point that is looked up for the stage has no address. -/
def Misses (stage : OperationRole) (gs : List Guard) (m : σ) : Prop :=
  ∃ found, ((gs.mapM s.lookup).run m).result = .ok found ∧
    ∃ points, (stage, points) ∈ found ∧ ∃ point ∈ points, point.2 = none

/-! ## Looking up -/

section Lookups

variable {s} {stage last : OperationRole} {g : Guard} {gs : List Guard} {m m' : σ}
  {points : List (String × Option String)}

theorem returns_guardPoints (s : Sequencer σ) (g : Guard) (m : σ) :
    ∃ points m', Returns (s.guardPoints g) m points [] m' := by
  unfold guardPoints
  split
  next name _ =>
    obtain ⟨points, _, m', looked, _⟩ :=
      s.context.sensors_of_points s.operation.owner name g.count s.scope m
    exact ⟨points, m', looked⟩
  next => exact ⟨[], m, .pure⟩

/-- The point without an address is one of the first guard, or it is found later. -/
theorem Misses.cons (h : s.Misses stage (g :: gs) m)
    (looked : Returns (s.guardPoints g) m points [] m') :
    (stage = g.stage ∧ ∃ point ∈ points, point.2 = none) ∨ s.Misses stage gs m' := by
  obtain ⟨found, ok, named, mem, missing⟩ := h
  rw [List.mapM_cons] at ok
  obtain ⟨first, m₁, _, _, here, rest, _⟩ := (Returns.of_ok ok).exists_of_bind
  obtain ⟨others, m₂, _, _, there, last, _⟩ := rest.exists_of_bind
  have looked : Returns (s.lookup g) m (g.stage, points) ([] ++ []) m' := looked.bind .pure
  have answer : first = (g.stage, points) := Except.ok.inj (here.result.symm.trans looked.result)
  have memory : m₁ = m' := here.memory.symm.trans looked.memory
  have listed : found = first :: others := (Except.ok.inj last.result).symm
  subst answer memory listed
  rcases List.mem_cons.mp mem with eq | later
  · cases eq
    exact .inl ⟨rfl, missing⟩
  · exact .inr ⟨others, there.result, named, later, missing⟩

theorem Misses.stage_mem (h : s.Misses stage gs m) : stage ∈ gs.map (·.stage) := by
  induction gs generalizing m with
  | nil =>
    obtain ⟨found, ok, points, mem, _⟩ := h
    cases ok
    cases mem
  | cons g gs ih =>
    obtain ⟨points, m', looked⟩ := s.returns_guardPoints g m
    rcases h.cons looked with ⟨rfl, _⟩ | later
    · exact List.mem_cons_self
    · exact List.mem_cons_of_mem _ (ih later)

/-- The sequence has come to `last`, and these guards are still to come, one after the other. The
stage in question has been passed, or a point of it is going to be missed. -/
structure Pending (s : Sequencer σ) (stage last : OperationRole) (gs : List Guard) (m : σ) :
    Prop where
  ascending : (last :: gs.map (·.stage)).Pairwise fun a b => a.offset < b.offset
  passed : last ∈ stage.onward ∨ s.Misses stage gs m

/-- Looking up for the next guard goes past it. If the guard's stage is blocked, then what came last
is blocked already or a point has just been missed. -/
theorem Pending.next (h : s.Pending stage last (g :: gs) m) (waits : stage ∈ OperationRole.guarded)
    (known : g.stage ∈ OperationRole.guarded)
    (looked : Returns (s.guardPoints g) m points [] m') :
    (g.stage ∈ stage.onward → last ∈ stage.onward ∨ ∃ point ∈ points, point.2 = none) ∧
      s.Pending stage g.stage gs m' := by
  have order {role : OperationRole} (mem : role ∈ OperationRole.stages) :=
    OperationRole.mem_onward_iff waits mem
  have listed := OperationRole.mem_stages_of_guarded known
  obtain ⟨first, later⟩ := List.pairwise_cons.mp h.ascending
  rcases h.passed with passed | misses
  · refine ⟨fun _ => .inl passed, later, .inl ?_⟩
    have before := (order (OperationRole.mem_stages_of_onward passed)).mp passed
    have after := first g.stage List.mem_cons_self
    exact (order listed).mpr (by omega)
  · rcases misses.cons looked with ⟨rfl, missing⟩ | misses
    · exact ⟨fun _ => .inr missing, later, .inl ((order listed).mpr (Nat.le_refl _))⟩
    · refine ⟨fun blocked => ?_, later, .inr misses⟩
      -- the stage is still to come, so what comes before it is not blocked
      have before := (order listed).mp blocked
      have after : g.stage.offset < stage.offset :=
        (List.pairwise_cons.mp later).1 stage misses.stage_mem
      omega

/-- The same for the contacts of the guard's sensor. -/
theorem Pending.sensors {name : String} {target : OperationRole} {sensor : Option String}
    {count : Option UInt32} (h : s.Pending stage last (⟨target, sensor, count⟩ :: gs) m)
    (waits : stage ∈ OperationRole.guarded) (known : target ∈ OperationRole.guarded)
    (configured : sensor = some name) :
    ∃ contacts m', Returns (s.sensors name count) m contacts [] m' ∧
      (target ∈ stage.onward → last ∈ stage.onward ∨ s.context.alwaysOff ∈ contacts) ∧
        s.Pending stage target gs m' := by
  obtain ⟨points, contacts, m', looked, sensed, missing⟩ :=
    s.context.sensors_of_points s.operation.owner name count s.scope m
  have guard : Returns (s.guardPoints ⟨target, sensor, count⟩) m points [] m' := by
    rw [guardPoints, configured]
    exact looked
  obtain ⟨blocked, pending⟩ := h.next waits known guard
  refine ⟨contacts, m', sensed, fun mem => ?_, pending⟩
  rcases blocked mem with passed | ⟨point, inside, none⟩
  · exact .inl passed
  · exact .inr (missing point inside none)

end Lookups

/-! ## Rungs that stay dark -/

/-- No timer of the rungs is a bit of the operation or the signal that is always off, and that
signal is no bit of the operation either. -/
structure Quiet (rungs : List Rung) : Prop where
  clear : s.Clear rungs
  signal : s.context.settings.alwaysOff ∉ timersOf (streamRows rungs)
  apart : ∀ role : OperationRole, s.bit role ≠ s.context.settings.alwaysOff

/-- All that the stage blocks is off, and so is the signal that is always off. -/
structure Dark (stage : OperationRole) (d : Devices) : Prop where
  bits : ∀ role, stage.Blocks role → d.bit (s.bit role) = false
  signal : d.bit s.context.settings.alwaysOff = false

/-- A scan of the rungs lights up nothing that the stage blocks. -/
def KeepsDark (stage : OperationRole) (rungs : List Rung) : Prop :=
  s.Quiet rungs → ∀ d e, Rung.AllScan rungs d e → s.Dark stage d → s.Dark stage e

section Darkness

variable {s} {stage source target last : OperationRole} {rungs old new : List Rung} {d e : Devices}
  {conditions : List Contact}

theorem Quiet.left (h : s.Quiet (old ++ new)) : s.Quiet old where
  clear := h.clear.left
  signal mem := by
    refine h.signal ?_
    rw [streamRows_append, timersOf_append]
    exact List.mem_append_left _ mem
  apart := h.apart

theorem Quiet.right (h : s.Quiet (old ++ new)) : s.Quiet new where
  clear := h.clear.right
  signal mem := by
    refine h.signal ?_
    rw [streamRows_append, timersOf_append]
    exact List.mem_append_right _ mem
  apart := h.apart

theorem keepsDark_nil : s.KeepsDark stage [] := by
  intro _ d e scan dark
  rw [Rung.allScan_nil] at scan
  exact scan ▸ dark

theorem KeepsDark.append (h : s.KeepsDark stage old) (h' : s.KeepsDark stage new) :
    s.KeepsDark stage (old ++ new) := by
  intro quiet d e scan dark
  obtain ⟨f, first, second⟩ := Rung.allScan_append.mp scan
  exact h' quiet.right f e second (h quiet.left d f first dark)

theorem spares_signal (drives : s.AllDrive target rungs) (quiet : s.Quiet rungs) :
    ∀ r ∈ rungs, s.context.settings.alwaysOff ∉ r.targets := by
  intro r mem driven
  obtain ⟨a, inside, decides⟩ := Rung.mem_targets.mp driven
  rcases drives r mem a inside with own | ⟨timer, preset, rfl⟩
  · rw [own] at decides
    exact quiet.apart target (Option.some.inj decides)
  · have same : Device.timer timer = s.context.settings.alwaysOff := Option.some.inj decides
    exact quiet.signal (same ▸ Rung.mem_timersOf mem inside)

/-- Rungs that drive one role keep the dark if they leave that role off where it is blocked. -/
theorem keepsDark_of_allDrive (drives : s.AllDrive target rungs)
    (off : stage.Blocks target → s.Clear rungs → ∀ d e, Rung.AllScan rungs d e →
      s.Dark stage d → e.bit (s.bit target) = false) : s.KeepsDark stage rungs := by
  intro quiet d e scan dark
  refine ⟨fun role blocked => ?_, ?_⟩
  · by_cases own : role = target
    · rw [own] at blocked ⊢
      exact off blocked quiet.clear d e scan dark
    · rw [frame_of_allDrive drives quiet.clear scan own]
      exact dark.bits role blocked
  · rw [scan.frame (spares_signal drives quiet)]
    exact dark.signal

theorem keepsDark_outside (drives : s.AllDrive target rungs) (free : ¬stage.Blocks target) :
    s.KeepsDark stage rungs :=
  keepsDark_of_allDrive drives fun blocked => absurd blocked free

/-- A condition with the signal that is always off among its contacts does not hold. -/
theorem all_reads_of_alwaysOff (dark : s.Dark stage d) (mem : s.context.alwaysOff ∈ conditions) :
    conditions.all (·.reads d) = false := by
  rw [List.all_eq_false]
  refine ⟨s.context.alwaysOff, mem, ?_⟩
  simp [Context.alwaysOff, dark.signal]

/-- What sets a latch in the dark: nothing, if its source is blocked or a condition is always
off. -/
theorem unset_of_dark (dark : s.Dark stage d)
    (h : stage.Blocks source ∨ s.context.alwaysOff ∈ conditions) :
    (d.bit (s.bit source) && conditions.all (·.reads d)) = false := by
  rcases h with blocked | mem
  · rw [dark.bits source blocked, Bool.false_and]
  · rw [all_reads_of_alwaysOff dark mem, Bool.and_false]

theorem keepsDark_latch
    (h : stage.Blocks target → stage.Blocks source ∨ s.context.alwaysOff ∈ conditions) :
    s.KeepsDark stage [s.latch (s.contact source) conditions target] := by
  have drives : s.AllDrive target [s.latch (s.contact source) conditions target] :=
    fun r mem => List.mem_singleton.mp mem ▸ s.drivesOnly_latch _ _ target
  refine keepsDark_of_allDrive drives fun blocked _ d e scan dark => ?_
  rw [bit_latch scan, reads_contact, unset_of_dark dark (h blocked), dark.bits target blocked]
  rfl

theorem keepsDark_stepRungs {t : Timer}
    (h : stage.Blocks target → stage.Blocks last ∨ s.context.alwaysOff ∈ conditions) :
    s.KeepsDark stage (s.stepRungs last conditions t target) := by
  refine keepsDark_of_allDrive latches_stepRungs.drives fun blocked clear d e scan dark => ?_
  obtain ⟨free, eq⟩ := bit_stepRungs clear scan
  rw [eq, unset_of_dark dark (h blocked), dark.bits target blocked]
  rfl

theorem keepsDark_delays (delays : s.Delays source target rungs)
    (h : stage.Blocks target → stage.Blocks source) : s.KeepsDark stage rungs := by
  refine keepsDark_of_allDrive delays.1 fun blocked _ d e scan dark => ?_
  rw [← Bool.not_eq_true]
  intro on
  have source := delays.2 d e scan on
  rw [dark.bits _ (h blocked)] at source
  cases source

theorem keepsDark_hold (s : Sequencer σ) (m : σ) : s.KeepsDark stage (s.hold.run m).rungs := by
  refine keepsDark_of_allDrive (s.allDrive_hold m) fun blocked _ d e scan dark => ?_
  have confirmed : stage.Blocks .startConfirmed :=
    .inl (blocked.elim (fun mem => absurd (OperationRole.mem_stages_of_onward mem) (by decide))
      fun held => held.2)
  rw [bit_hold scan, dark.bits _ confirmed, dark.bits _ blocked]
  rfl

/-- The run is enabled by the start latch, or by the hold of a retention: both are blocked with
it. -/
theorem keepsDark_runEnable (waits : stage ∈ OperationRole.guarded) (s : Sequencer σ) (m : σ) :
    s.KeepsDark stage (s.runEnable.run m).rungs := by
  refine keepsDark_of_allDrive (s.allDrive_runEnable m) fun blocked _ d e scan dark => ?_
  obtain ⟨latch, hold⟩ := blocked.of_runEnable waits
  rw [bit_runEnable scan, dark.bits _ latch, dark.bits _ hold, Bool.and_false]
  rfl

end Darkness

/-! ## The sequence in the dark -/

section Sequence

variable {stage last : OperationRole} {m : σ}

theorem steady_resetGate : Steady s.resetGate := fun m => ⟨_, _, s.returns_resetGate m⟩

theorem steady_optionalDelay (category : TimerCategory) (source target : OperationRole) :
    Steady (s.optionalDelay category source target) := by
  unfold optionalDelay
  split
  · exact .emitAll _
  · exact .emit _
  · exact .bind (.warn _) fun _ => .emit _

/-- The stages that wait for a sensor come in their order. -/
theorem stages_guards : (s.guards.map (·.stage)).Sublist OperationRole.guarded := by
  have steps : (s.template.steps.filter fun step =>
      (s.timer (.speedChange step)).isFound).Sublist (List.finRange 4) :=
    List.filter_sublist.trans (List.take_sublist _ _)
  have timed := (steps.map OperationRole.speedStep).append_right [.finishDetected]
  simpa [guards, guardsFrom, controlGuard, startGuard, stepGuard, finishGuard,
    OperationRole.guarded, Function.comp_def] using timed

theorem Pending.start (h : s.Misses stage s.guards m) : s.Pending stage .resetGate s.guards m where
  ascending := by
    have order : (OperationRole.resetGate :: OperationRole.guarded).Pairwise
        fun a b => a.offset < b.offset := by decide
    exact order.sublist (s.stages_guards.cons_cons _)
  passed := .inr h

variable {s}

theorem not_blocks {role : OperationRole} (outside : role ∉ OperationRole.stages)
    (other : role ≠ .hold) : ¬stage.Blocks role :=
  fun blocked => outside (OperationRole.mem_stages_of_onward (blocked.mem other))

/-- A part of the sequence that looks nothing up. -/
theorem tracks_steady {R : σ → Prop} {x : Emission σ Unit} (steady : Steady x)
    (keeps : ∀ m, s.KeepsDark stage (x.run m).rungs) (h : R m) :
    Tracks (s.KeepsDark stage) m x fun _ => R := .of_steady steady keeps h

theorem tracks_guarded {R : σ → Prop} {p : Prop} [Decidable p] {x : Emission σ Unit}
    (steady : Steady x) (keeps : ∀ m, s.KeepsDark stage (x.run m).rungs) (h : R m) :
    Tracks (s.KeepsDark stage) m (if p then x else pure ()) fun _ => R := by
  split
  · exact tracks_steady steady keeps h
  · exact .of_returns .pure keepsDark_nil h

theorem tracks_startLatch (waits : stage ∈ OperationRole.guarded)
    (h : s.Pending stage .resetGate s.guards m) :
    Tracks (s.KeepsDark stage) m s.startLatch fun _ =>
      s.Pending stage .startLatch (s.startGuard :: s.guardsFrom s.template.steps) := by
  have first : ¬.resetGate ∈ stage.onward := fun mem =>
    absurd (OperationRole.mem_stages_of_onward mem) (by decide)
  have listed : OperationRole.startLatch ∈ OperationRole.guarded := by decide
  have controlled : ∃ control m', Returns s.controlContacts m control [] m' ∧
      (.startLatch ∈ stage.onward → s.context.alwaysOff ∈ control) ∧
        s.Pending stage .startLatch (s.startGuard :: s.guardsFrom s.template.steps) m' := by
    unfold controlContacts
    split
    next name configured =>
      obtain ⟨control, m', sensed, missing, pending⟩ := h.sensors waits listed configured
      exact ⟨control, m', sensed, fun mem => (missing mem).resolve_left first, pending⟩
    next configured =>
      have looked : Returns (s.guardPoints s.controlGuard) m [] [] m := by
        rw [guardPoints, controlGuard, configured]
        exact .pure
      obtain ⟨missing, pending⟩ := h.next waits listed looked
      refine ⟨[], m, .pure, fun mem => ?_, pending⟩
      obtain ⟨point, none, _⟩ := (missing mem).resolve_left first
      cases none
  obtain ⟨control, m', sensed, missing, pending⟩ := controlled
  have keeps : s.KeepsDark stage [s.latch (s.contact .resetGate)
      (.inverted s.context.settings.pauseSignal :: control) .startLatch] := by
    refine keepsDark_latch fun blocked => .inr ?_
    exact List.mem_cons_of_mem _ (missing (blocked.mem (by simp)))
  rw [startLatch_eq]
  exact .of_returns (sensed.bind .emit) keeps pending

theorem tracks_startConfirmed (waits : stage ∈ OperationRole.guarded)
    (h : s.Pending stage .startLatch (s.startGuard :: s.guardsFrom s.template.steps) m) :
    Tracks (s.KeepsDark stage) m s.startConfirmed fun _ =>
      s.Pending stage .startConfirmed (s.guardsFrom s.template.steps) := by
  unfold startConfirmed
  split
  next => exact .halt keepsDark_nil
  next name configured =>
    have listed : OperationRole.startConfirmed ∈ OperationRole.guarded := by decide
    obtain ⟨contacts, m', sensed, missing, pending⟩ := h.sensors waits listed configured
    have keeps : s.KeepsDark stage
        [s.latch (s.contact .startDelay) contacts .startConfirmed] := by
      refine keepsDark_latch fun blocked => ?_
      refine (missing (blocked.mem (by simp))).imp_left fun passed => .inl ?_
      exact OperationRole.onward_startDelay waits passed
    exact .of_returns (sensed.bind .emit) keeps pending

/-- A speed change point is passed with its own guard, or is skipped and has none. -/
theorem tracks_speedStep (waits : stage ∈ OperationRole.guarded) (step : Step) (rest : List Step)
    (h : s.Pending stage last (s.guardsFrom (step :: rest)) m) :
    Tracks (s.KeepsDark stage) m (s.speedStep last step) fun next =>
      s.Pending stage next (s.guardsFrom rest) := by
  unfold speedStep
  split
  next => exact .halt keepsDark_nil
  next name configured =>
    split
    next => exact .halt keepsDark_nil
    next count several =>
      have skipped : s.guardsFrom (step :: rest) = s.guardsFrom rest := by
        simp [guardsFrom, several, TimerLookup.isFound]
      rw [skipped] at h
      exact .of_returns (Returns.bind .warn .pure) keepsDark_nil h
    next t found =>
      have timed : s.guardsFrom (step :: rest) = s.stepGuard step :: s.guardsFrom rest := by
        simp [guardsFrom, found, TimerLookup.isFound]
      rw [timed] at h
      have known : ∀ step, OperationRole.speedStep step ∈ OperationRole.guarded := by decide
      obtain ⟨contacts, m', sensed, missing, pending⟩ := h.sensors waits (known step) configured
      have keeps : s.KeepsDark stage (s.stepRungs last contacts t (.speedStep step)) := by
        refine keepsDark_stepRungs fun blocked => ?_
        exact (missing (blocked.mem (by simp))).imp_left .inl
      exact .of_returns (sensed.bind (Returns.emitAll.bind .pure)) keeps pending

theorem tracks_finishDetected (waits : stage ∈ OperationRole.guarded)
    (h : s.Pending stage last [s.finishGuard] m) :
    Tracks (s.KeepsDark stage) m (s.finishDetected last) fun _ _ => True := by
  unfold finishDetected
  split
  next => exact .halt keepsDark_nil
  next name configured =>
    have listed : OperationRole.finishDetected ∈ OperationRole.guarded := by decide
    obtain ⟨contacts, m', sensed, missing, _⟩ := h.sensors waits listed configured
    have keeps : s.KeepsDark stage [s.latch (s.contact last) contacts .finishDetected] := by
      refine keepsDark_latch fun blocked => ?_
      exact (missing (blocked.mem (by simp))).imp_left .inl
    exact .of_returns (sensed.bind .emit) keeps trivial

theorem tracks_deepSeat (waits : stage ∈ OperationRole.guarded) (m : σ) :
    Tracks (s.KeepsDark stage) m s.deepSeat fun source _ => stage.Blocks source := by
  have closing := OperationRole.blocks_closing waits
  unfold deepSeat
  split
  next t found =>
    refine .of_returns (Returns.emitAll.bind .pure) ?_ (closing _ (by decide))
    exact keepsDark_delays s.delays_timerRungs fun _ => closing _ (by decide)
  next => exact .of_returns .pure keepsDark_nil (closing _ (by decide))
  next =>
    exact .of_returns (Returns.bind .warn .pure) keepsDark_nil (closing _ (by decide))

/-- Where a point of a stage is missed, the rungs of the sequence keep the stage dark, and all that
comes after it. -/
theorem keepsDark_sequence (waits : stage ∈ OperationRole.guarded)
    (h : s.Misses stage s.guards m) : s.KeepsDark stage (s.sequence.run m).rungs := by
  have join (before after : List Rung) : s.KeepsDark stage before → s.KeepsDark stage after →
      s.KeepsDark stage (before ++ after) := KeepsDark.append
  have tracked : Tracks (s.KeepsDark stage) m s.sequence fun _ _ => True := by
    rw [sequence_eq]
    refine (tracks_steady s.steady_resetGate (fun m => ?_) (Pending.start s h)).bind join ?_
    · exact keepsDark_outside (s.allDrive_resetGate m) (not_blocks (by decide) (by decide))
    intro _ m h
    refine (tracks_guarded (.emit _) s.keepsDark_hold h).bind join ?_
    intro _ m h
    refine (tracks_startLatch waits h).bind join ?_
    intro _ m h
    refine (tracks_guarded (.emit _) (fun m => ?_) h).bind join ?_
    · exact keepsDark_outside (s.allDrive_positioningStart m)
        (not_blocks (by decide) (by decide))
    intro _ m h
    refine (tracks_steady (.emit _) (keepsDark_runEnable waits s) h).bind join ?_
    intro _ m h
    refine (tracks_steady (s.steady_optionalDelay _ _ _) (fun m => ?_) h).bind join ?_
    · exact keepsDark_delays (s.delays_optionalDelay _ _ _ m)
        (OperationRole.Blocks.of_startDelay waits)
    intro _ m h
    refine (tracks_startConfirmed waits h).bind join ?_
    intro _ m h
    refine (tracks_guarded (.emit _) (fun m => ?_) h).bind join ?_
    · exact keepsDark_outside (s.allDrive_positioningBusy m)
        (not_blocks (by decide) (by decide))
    intro _ m h
    refine (Tracks.foldlM (J := fun rest last => s.Pending stage last (s.guardsFrom rest))
      join keepsDark_nil (fun step rest _ _ h => tracks_speedStep waits step rest h) h).bind join ?_
    intro last m h
    refine (tracks_finishDetected waits h).bind join ?_
    intro _ m _
    refine (tracks_deepSeat waits m).bind join ?_
    intro source m blocked
    refine (tracks_steady (R := fun _ => True) (s.steady_optionalDelay _ _ _) (fun m => ?_)
      trivial).bind join ?_
    · exact keepsDark_delays (s.delays_optionalDelay _ _ _ m) fun _ => blocked
    intro _ m _
    refine tracks_steady (R := fun _ => True) (.emit _) (fun m => ?_) trivial
    exact keepsDark_delays s.delays_pulse fun _ =>
      OperationRole.blocks_closing waits _ (by decide)
  exact tracked.writes

end Sequence

/-- The stages for which a point of the sensor was looked up in vain. -/
def unresolved : Emission σ (List OperationRole) := do
  let looked ← s.lookups
  return (looked.filter fun stage => stage.2.any (·.2.isNone)).map (·.1)

theorem misses_of_unresolved {stage : OperationRole} {stages : List OperationRole} {m : σ}
    (ok : (s.unresolved.run m).result = .ok stages) (mem : stage ∈ stages) :
    s.Misses stage s.guards m := by
  obtain ⟨looked, m', _, _, found, answer, _⟩ := (Returns.of_ok ok).exists_of_bind
  have listed := Except.ok.inj answer.result
  rw [← listed] at mem
  obtain ⟨⟨stage, points⟩, inside, rfl⟩ := List.mem_map.mp mem
  obtain ⟨inside, missing⟩ := List.mem_filter.mp inside
  obtain ⟨point, among, none⟩ := List.any_eq_true.mp missing
  exact ⟨looked, found.result, points, inside, point, among, Option.isNone_iff_eq_none.mp none⟩

end Sequencer

namespace Context

open Emission

variable {σ : Type} (c : Context σ) (o : Operation)

/-- The stages of an operation that wait for a sensor of which some point has no address: the start
latch for the control sensor, the confirmed start for the start sensor, a speed step that has a
timer of its own for the sensor of its speed change point, the finish for the finish sensor. The
points are looked up in the order and with the memory of the operation's own rows. -/
def unresolvedStages (m : σ) : List OperationRole :=
  match ((c.onSequencer o (·.unresolved)).run m).result with
  | .ok stages => stages
  | .error _ => []

/-- An unresolved sensor fails safe. If a stage waits for a sensor with a point that has no address,
that stage and all stages after it stay off. Every state can be scanned, and they are off in whatever
states scans lead to from one where the operation's bits are off, with changes to all other devices
in between, as long as the signal that is always off is left off. -/
theorem unresolved_stays_off (b : Block) (found : c.snapshot.block? .operation o.id = some b)
    (m : σ) (rows : List Row) (generated : rows = (((c.operation o).run m).synthesis o.owner).rows)
    (apart : ∀ role : OperationRole, b.bit role ∉ timersOf rows)
    (untimed : c.settings.alwaysOff ∉ timersOf rows)
    (shared : ∀ role : OperationRole, b.bit role ≠ c.settings.alwaysOff)
    (stage : OperationRole) (unresolved : stage ∈ c.unresolvedStages o m) :
    (∀ s, ∃ t, Scan.Runs rows s t) ∧
      ∀ d, Scan.Reached rows
          (fun d => (∀ role : OperationRole, d.bit (b.bit role) = false) ∧
            d.bit c.settings.alwaysOff = false)
          (fun d e => (∀ role : OperationRole, e.bit (b.bit role) = d.bit (b.bit role)) ∧
            e.bit c.settings.alwaysOff = false) d →
        ∀ later ∈ stage.onward, d.bit (b.bit later) = false := by
  have stream : rows = streamRows ((c.operation o).run m).rungs := generated
  refine ⟨fun s => stream ▸ Scan.exists_runs _ s, fun d reached later mem => ?_⟩
  rcases c.onSequencer_cases o m with ⟨f, stopped⟩ | ⟨t, b', scope, _, fits, runs⟩
  · simp [unresolvedStages, stopped] at unresolved
  have own : some b' = some b := fits.found.symm.trans found
  cases own
  obtain ⟨_, written⟩ := runs (·.sequence)
  obtain ⟨answer, _⟩ := runs (·.unresolved)
  obtain ⟨stages, ok, named⟩ : ∃ stages,
      ((Sequencer.mk c o t b scope).unresolved.run m).result = .ok stages ∧ stage ∈ stages := by
    rw [unresolvedStages, answer] at unresolved
    split at unresolved
    next stages ok => exact ⟨stages, ok, unresolved⟩
    next => cases unresolved
  have misses := Sequencer.misses_of_unresolved _ ok named
  have waits : stage ∈ OperationRole.guarded :=
    (Sequencer.stages_guards _).mem misses.stage_mem
  have keeps := Sequencer.keepsDark_sequence waits misses
  rw [operation_eq, written] at stream
  rw [stream] at apart untimed reached
  have dark : (Sequencer.mk c o t b scope).Dark stage d :=
    reached.invariant (P := (Sequencer.mk c o t b scope).Dark stage)
      (fun d off => ⟨fun role _ => off.1 role, off.2⟩)
      (fun d e dark change => ⟨fun role blocked => (change.1 role).trans (dark.bits role blocked),
        change.2⟩)
      fun d e dark scan => keeps ⟨apart, untimed, shared⟩ d e scan dark
  exact dark.bits later (.inl mem)

end Context

/-- A retention that starts on two points, of which only the first has an address. -/
def Operation.halfResolved : Operation where
  id := 1
  cylinderId := 1
  categoryCode := 2
  start := some "_XS"
  finish := some "XE"
  sensorCount := some 2

def Snapshot.halfResolved : Snapshot where
  operations := [.halfResolved]
  allocations := [⟨.operation, 1, "L", 0, 20⟩]

namespace Snapshot.HalfResolved

/-- The addresses of the points that have one. -/
def addresses : List (String × String) := [("XS1", "X0"), ("XE1", "X1"), ("XE2", "X2")]

def context : Context Unit where
  settings := {}
  resolver :=
    { resolve := fun r m => (addresses.lookup r.name, m)
      range := fun _ _ _ m => ([], m) }
  conditionIds := conditionIds []
  snapshot := halfResolved

def block : Block := ⟨⟨.operation, 1, "L", 0, 20⟩⟩

def rows : List Row :=
  (((context.operation .halfResolved).run ()).synthesis Operation.halfResolved.owner).rows

end Snapshot.HalfResolved

theorem unresolved_stays_off_halfResolved :
    (∀ s, ∃ t, Scan.Runs Snapshot.HalfResolved.rows s t) ∧
      ∀ d, Scan.Reached Snapshot.HalfResolved.rows
          (fun d => (∀ role : OperationRole, d.bit (Snapshot.HalfResolved.block.bit role) = false) ∧
            d.bit Snapshot.HalfResolved.context.settings.alwaysOff = false)
          (fun d e => (∀ role : OperationRole, e.bit (Snapshot.HalfResolved.block.bit role) =
            d.bit (Snapshot.HalfResolved.block.bit role)) ∧
              e.bit Snapshot.HalfResolved.context.settings.alwaysOff = false) d →
        ∀ later ∈ OperationRole.onward .startConfirmed,
          d.bit (Snapshot.HalfResolved.block.bit later) = false := by
  have untimed : timersOf Snapshot.HalfResolved.rows = [] := by decide +kernel
  have initial (role : OperationRole) :
      (Snapshot.HalfResolved.block.bit role).toList.head? = some 'L' := by
    simp [Block.bit, Allocation.device, Snapshot.HalfResolved.block, Device.toList_numbered]
  refine Snapshot.HalfResolved.context.unresolved_stays_off .halfResolved
    Snapshot.HalfResolved.block rfl () Snapshot.HalfResolved.rows rfl (fun role => ?_) ?_
    (fun role same => ?_) .startConfirmed (by decide +kernel)
  · rw [untimed]
    exact List.not_mem_nil
  · rw [untimed]
    exact List.not_mem_nil
  · have signal := initial role
    rw [same] at signal
    revert signal
    decide

end Rungs
