import Rungs.Proofs.Operation.Drivers
import Rungs.Proofs.Operation.FailSafe
import Rungs.Proofs.Resolution

/-! No stage of an operation confirms itself. A rung that leads to the confirmed start or to the
finish has, right after its load, the contacts of the sensor configured for that stage, and there is
at least one. A rung that leads to a speed step starts from a timer, and the rung before it, which
runs the timer, has the contacts (`sensing_guarded`). -/

namespace Rungs

open Emission

/-- The stages that are confirmed by a sensor. -/
def OperationRole.isSensed : OperationRole → Bool
  | .startConfirmed | .finishDetected | .speedStep _ => true
  | _ => false

namespace Context

variable {σ : Type} (c : Context σ) (initial : σ) (o : Operation)

/-- The contacts are what a sensor of the operation was found to stand for, and there is one. -/
structure Finds (name : String) (count : Option UInt32) (contacts : List Contact) : Prop where
  asked : ∃ scope m, c.Reached initial m ∧
    ((c.sensors o.owner name count scope).run m).result = .ok contacts
  some : contacts ≠ []

/-- The rung has the contacts of the configured sensor, in series, between its load and the rows
`more`. -/
inductive WaitsFor (sensor : Option String) (count : Option UInt32) (more : List Row) (r : Rung) :
    Prop
  | intro {name : String} {contacts : List Contact}
      (configured : Text.configured? sensor = some name)
      (found : c.Finds initial o name count contacts)
      (rows : r.rows = r.entry.first.load :: (contacts.map Contact.series ++ more))

/-- The last rows of a rung that latches a stage: on by itself, with the reset gate. -/
def latchRows (b : Block) (role : OperationRole) : List Row :=
  [(b.contact role).parallel, (b.contact OperationRole.resetGate).series,
    .instruction .out [b.bit role]]

/-- Written after the rungs `before`, the rung leads to a stage only as the stage's sensor tells. -/
structure Heeds (b : Block) (before : List Rung) (r : Rung) : Prop where
  start : .instruction .out [b.bit OperationRole.startConfirmed] ∈ r.rows →
    c.WaitsFor initial o o.start o.sensorCount (latchRows b .startConfirmed) r
  finish : .instruction .out [b.bit OperationRole.finishDetected] ∈ r.rows →
    c.WaitsFor initial o o.finish o.sensorCount (latchRows b .finishDetected) r
  step : ∀ step, .instruction .out [b.bit (OperationRole.speedStep step)] ∈ r.rows →
    ∃ earlier timing t, before = earlier ++ [timing] ∧
      c.timer o.owner (.speedChange step) = .found t ∧
      c.WaitsFor initial o o.speedSensors[step.val]? none
        [(Action.delay t.number t.preset).row] timing ∧
      r.rows = (Contact.plain (Device.timer t.number)).load :: latchRows b (.speedStep step)

variable {c initial o}

theorem Heeds.later {b : Block} {before : List Rung} {r : Rung} (h : c.Heeds initial o b before r)
    (earlier : List Rung) : c.Heeds initial o b (earlier ++ before) r where
  start := h.start
  finish := h.finish
  step step written := by
    obtain ⟨more, timing, t, rfl, rest⟩ := h.step step written
    exact ⟨earlier ++ more, timing, t, (List.append_assoc ..).symm, rest⟩

end Context

namespace Sequencer

variable {σ : Type} (s : Sequencer σ) (initial : σ)

/-- Each of the rungs heeds the sensors, written after those before it. -/
def AllHeed (rungs : List Rung) : Prop :=
  ∀ before r after, rungs = before ++ r :: after →
    s.context.Heeds initial s.operation s.block before r

variable {s initial} {m : σ} {target : OperationRole}

theorem allHeed_nil : s.AllHeed initial [] := by
  intro before r after eq
  simp at eq

theorem allHeed_append (before after : List Rung) (first : s.AllHeed initial before)
    (second : s.AllHeed initial after) : s.AllHeed initial (before ++ after) := by
  intro earlier r later eq
  obtain ⟨middle, rfl, rest⟩ | ⟨middle, rfl, rest⟩ := List.append_eq_append_iff.mp eq
  · exact (second middle r later rest).later before
  · cases middle with
    | nil =>
      have here := (second [] r later rest.symm).later earlier
      rwa [List.append_nil] at here
    | cons head tail =>
      obtain ⟨rfl, -⟩ := List.cons_eq_cons.mp rest
      exact first earlier r tail rfl

/-- One more rung, if it heeds the sensors after all those before it. -/
theorem allHeed_concat {rungs : List Rung} {r : Rung} (all : s.AllHeed initial rungs)
    (last : s.context.Heeds initial s.operation s.block rungs r) :
    s.AllHeed initial (rungs ++ [r]) := by
  intro before r' after eq
  obtain rfl | ⟨front, x, rfl⟩ := List.eq_nil_or_concat after
  · obtain ⟨rfl, same⟩ := List.append_inj' eq rfl
    cases same
    exact last
  · have inner : rungs ++ [r] = (before ++ r' :: front) ++ [x] := by simpa using eq
    obtain ⟨rfl, -⟩ := List.append_inj' inner rfl
    exact all before r' front rfl

/-! ## Rungs without a sensed stage -/

/-- A row that writes a device is that of an output. -/
theorem mem_drives_of_row {rungs : List Rung} {r : Rung} {x : String} (mem : r ∈ rungs)
    (written : .instruction .out [x] ∈ r.rows) : (x, Command.out) ∈ drives rungs := by
  obtain ⟨a, inside, row⟩ := Rung.exists_action_of_row written rfl
  refine List.mem_flatMap.mpr ⟨r, mem, List.mem_filterMap.mpr ⟨a, inside, ?_⟩⟩
  cases a <;> simp [Action.row, Row.instruction] at row
  case out y => rw [row, Action.drive?]

/-- Rungs that drive some roles write the bits of no other role. -/
theorem mem_of_written {roles : List OperationRole} {rungs : List Rung} {r : Rung}
    {role : OperationRole} (drive : drives rungs = s.drivenBits roles) (mem : r ∈ rungs)
    (written : .instruction .out [s.block.bit role] ∈ r.rows) : role ∈ roles := by
  have driven := mem_drives_of_row mem written
  rw [drive] at driven
  obtain ⟨other, listed, coil⟩ := List.mem_flatMap.mp driven
  obtain ⟨_, _, same⟩ := List.mem_map.mp coil
  have this : other = role := OperationRole.bit_injective (Prod.mk.inj same).1
  exact this ▸ listed

theorem allHeed_of_drives {roles : List OperationRole} {rungs : List Rung}
    (drive : drives rungs = s.drivenBits roles)
    (free : ∀ role ∈ roles, role.isSensed = false) : s.AllHeed initial rungs := by
  have silent (r : Rung) (mem : r ∈ rungs) (role : OperationRole) (sensed : role.isSensed = true) :
      .instruction .out [s.block.bit role] ∉ r.rows := by
    intro written
    rw [free role (mem_of_written drive mem written)] at sensed
    cases sensed
  rintro before r after rfl
  have mem : r ∈ before ++ r :: after := List.mem_append_right before List.mem_cons_self
  exact ⟨fun written => absurd written (silent r mem _ rfl),
    fun written => absurd written (silent r mem _ rfl),
    fun step written => absurd written (silent r mem _ rfl)⟩

/-! ## Rungs of sensed stages -/

theorem rows_latch {source : Contact} {conditions : List Contact} :
    (s.latch source conditions target).rows =
      source.load :: (conditions.map Contact.series ++ Context.latchRows s.block target) := by
  rw [latch, Rung.rows_start, List.map_append, List.map_map, List.append_assoc]
  rfl

theorem eq_of_written {source : Contact} {conditions : List Contact} {role : OperationRole}
    (coil : target.coil = .out)
    (written : .instruction .out [s.block.bit role] ∈ (s.latch source conditions target).rows) :
    role = target :=
  List.mem_singleton.mp
    (mem_of_written (s.drives_latch source conditions target coil) List.mem_cons_self written)

variable {name : String} {count : Option UInt32} {contacts : List Contact}

theorem allHeed_startConfirmed (configured : Text.configured? s.operation.start = some name)
    (found : s.context.Finds initial s.operation name s.operation.sensorCount contacts) :
    s.AllHeed initial [s.latch (s.contact .startDelay) contacts .startConfirmed] := by
  refine allHeed_concat allHeed_nil ⟨fun _ => .intro configured found rows_latch,
    fun written => ?_, fun step written => ?_⟩
  · cases eq_of_written rfl written
  · cases eq_of_written rfl written

theorem allHeed_finishDetected {last : OperationRole}
    (configured : Text.configured? s.operation.finish = some name)
    (found : s.context.Finds initial s.operation name s.operation.sensorCount contacts) :
    s.AllHeed initial [s.latch (s.contact last) contacts .finishDetected] := by
  refine allHeed_concat allHeed_nil ⟨fun written => ?_,
    fun _ => .intro configured found rows_latch, fun step written => ?_⟩
  · cases eq_of_written rfl written
  · cases eq_of_written rfl written

/-- The rung that runs the timer of a speed step. -/
def timingRung (s : Sequencer σ) (last : OperationRole) (contacts : List Contact) (t : Timer) :
    Rung :=
  .start (s.contact last) (contacts.map .series) (.delay t.number t.preset)

/-- The timer of a speed step waits for the sensor, and the step for the timer. -/
theorem allHeed_stepRungs {last : OperationRole} {step : Step} {t : Timer}
    (configured : Text.configured? s.operation.speedSensors[step.val]? = some name)
    (timed : s.timer (.speedChange step) = .found t)
    (found : s.context.Finds initial s.operation name none contacts) :
    s.AllHeed initial (s.stepRungs last contacts t (.speedStep step)) := by
  have undriven : drives [s.timingRung last contacts t] = s.drivenBits [] := by
    rw [timingRung, drives_cons, Rung.actions_start, Rung.action?_series]
    rfl
  have waits : s.context.WaitsFor initial s.operation s.operation.speedSensors[step.val]? none
      [(Action.delay t.number t.preset).row] (s.timingRung last contacts t) := by
    refine .intro configured found ?_
    rw [timingRung, Rung.rows_start, List.map_map]
    rfl
  have timing : s.AllHeed initial [s.timingRung last contacts t] :=
    allHeed_of_drives undriven nofun
  refine allHeed_concat timing ⟨fun written => ?_, fun written => ?_, fun other written => ?_⟩
  · cases eq_of_written rfl written
  · cases eq_of_written rfl written
  · cases eq_of_written rfl written
    exact ⟨[], _, t, rfl, timed, waits, rows_latch⟩

/-! ## The sequence -/

/-- Looking a sensor of the operation up finds at least one contact, and writes no rung. -/
theorem returns_sensors (hm : s.context.Reached initial m) (name : String)
    (count : Option UInt32) : ∃ contacts m', Returns (s.sensors name count) m contacts [] m' ∧
      s.context.Reached initial m' ∧ s.context.Finds initial s.operation name count contacts := by
  obtain ⟨underscores, base, _, sensed⟩ :=
    s.context.sensors_exact s.operation.owner name count s.scope hm
  by_cases reference : ∃ number, Device.Names base "T" number
  · have only : Returns (s.sensors name count) m [⟨base, decide (0 < underscores)⟩] [] m := by
      rw [sensors, sensed.timer reference]
      exact .pure
    exact ⟨_, m, only, hm, ⟨s.scope, m, hm, only.result⟩, nofun⟩
  · obtain ⟨points, m', looked, hm', _, length, _⟩ := sensed.symbol reference
    refine ⟨_, m', looked.returns, hm', ⟨s.scope, m, hm, looked.returns.result⟩, ?_⟩
    rw [← List.length_pos_iff, List.length_map, length]
    exact Nat.lt_of_lt_of_le Nat.zero_lt_one (Nat.le_max_left ..)

/-- A part of the sequence that looks nothing up and leads to no sensed stage. -/
theorem tracks_plain {x : Emission σ Unit} (roles : List OperationRole) (steady : Steady x)
    (drive : ∀ m, drives (x.run m).rungs = s.drivenBits roles)
    (free : ∀ role ∈ roles, role.isSensed = false) (hm : s.context.Reached initial m) :
    Tracks (s.AllHeed initial) m x fun _ => s.context.Reached initial :=
  .of_steady steady (fun m => allHeed_of_drives (drive m) free) hm

theorem tracks_optional {p : Prop} [Decidable p] {x : Emission σ Unit} (role : OperationRole)
    (steady : Steady x) (drive : ∀ m, drives (x.run m).rungs = s.drivenBits [role])
    (free : role.isSensed = false) (hm : s.context.Reached initial m) :
    Tracks (s.AllHeed initial) m (if p then x else pure ()) fun _ =>
      s.context.Reached initial := by
  split
  · exact tracks_plain [role] steady drive (by simpa using free) hm
  · exact .of_returns .pure allHeed_nil hm

theorem tracks_heeding_startLatch (hm : s.context.Reached initial m) :
    Tracks (s.AllHeed initial) m s.startLatch fun _ => s.context.Reached initial := by
  have latched (control : List Contact) : s.AllHeed initial [s.latch (s.contact .resetGate)
      (.inverted s.context.settings.pauseSignal :: control) .startLatch] :=
    allHeed_of_drives (s.drives_latch _ _ .startLatch rfl) (by decide)
  rw [startLatch_eq]
  unfold controlContacts
  split
  next name configured =>
    obtain ⟨control, m', asked, hm', _⟩ := returns_sensors hm name none
    exact .of_returns (asked.bind .emit) (latched control) hm'
  next => exact .of_returns (Returns.pure.bind .emit) (latched []) hm

theorem tracks_heeding_startConfirmed (hm : s.context.Reached initial m) :
    Tracks (s.AllHeed initial) m s.startConfirmed fun _ => s.context.Reached initial := by
  unfold startConfirmed
  split
  next => exact .halt allHeed_nil
  next name configured =>
    obtain ⟨contacts, m', asked, hm', found⟩ := returns_sensors hm name s.operation.sensorCount
    exact .of_returns (asked.bind .emit) (allHeed_startConfirmed configured found) hm'

theorem tracks_heeding_speedStep (last : OperationRole) (step : Step)
    (hm : s.context.Reached initial m) :
    Tracks (s.AllHeed initial) m (s.speedStep last step) fun _ => s.context.Reached initial := by
  unfold speedStep
  split
  next => exact .halt allHeed_nil
  next name configured =>
    split
    next => exact .halt allHeed_nil
    next => exact .of_returns (Returns.bind .warn .pure) allHeed_nil hm
    next t timed =>
      obtain ⟨contacts, m', asked, hm', found⟩ := returns_sensors hm name none
      exact .of_returns (asked.bind (Returns.emitAll.bind .pure))
        (allHeed_stepRungs configured timed found) hm'

theorem tracks_heeding_finishDetected (last : OperationRole) (hm : s.context.Reached initial m) :
    Tracks (s.AllHeed initial) m (s.finishDetected last) fun _ => s.context.Reached initial := by
  unfold finishDetected
  split
  next => exact .halt allHeed_nil
  next name configured =>
    obtain ⟨contacts, m', asked, hm', found⟩ := returns_sensors hm name s.operation.sensorCount
    exact .of_returns (asked.bind .emit) (allHeed_finishDetected configured found) hm'

theorem tracks_heeding_deepSeat (hm : s.context.Reached initial m) :
    Tracks (s.AllHeed initial) m s.deepSeat fun _ => s.context.Reached initial := by
  unfold deepSeat
  split
  next t found =>
    exact .of_returns (Returns.emitAll.bind .pure)
      (allHeed_of_drives (s.drives_timerRungs t _ .deepSeat rfl) (by decide)) hm
  next => exact .of_returns .pure allHeed_nil hm
  next => exact .of_returns (Returns.bind .warn .pure) allHeed_nil hm

/-- Wherever the sequence stops, each of its rungs heeds the sensors. -/
theorem allHeed_sequence (hm : s.context.Reached initial m) :
    s.AllHeed initial (s.sequence.run m).rungs := by
  have tracked : Tracks (s.AllHeed initial) m s.sequence fun _ =>
      s.context.Reached initial := by
    rw [sequence_eq]
    refine (tracks_plain [.resetGate] s.steady_resetGate s.drives_resetGate (by decide) hm).bind
      allHeed_append fun _ m hm => ?_
    refine (tracks_optional .hold (.emit _) (fun _ => rfl) rfl hm).bind allHeed_append
      fun _ m hm => ?_
    refine (tracks_heeding_startLatch hm).bind allHeed_append fun _ m hm => ?_
    refine (tracks_optional .positioningStart (.emit _) (fun _ => rfl) rfl hm).bind allHeed_append
      fun _ m hm => ?_
    refine (tracks_plain [.runEnable] (.emit _) s.drives_runEnable (by decide) hm).bind
      allHeed_append fun _ m hm => ?_
    refine (tracks_plain [.startDelay] (s.steady_optionalDelay _ _ _) s.drives_startDelay
      (by decide) hm).bind allHeed_append fun _ m hm => ?_
    refine (tracks_heeding_startConfirmed hm).bind allHeed_append fun _ m hm => ?_
    refine (tracks_optional .positioningBusy (.emit _) (fun _ => rfl) rfl hm).bind allHeed_append
      fun _ m hm => ?_
    refine (Tracks.foldlM (J := fun _ _ => s.context.Reached initial) allHeed_append allHeed_nil
      (fun step _ last _ hm => tracks_heeding_speedStep last step hm) hm).bind allHeed_append
      fun last m hm => ?_
    refine (tracks_heeding_finishDetected last hm).bind allHeed_append fun _ m hm => ?_
    refine (tracks_heeding_deepSeat hm).bind allHeed_append fun source m hm => ?_
    refine (tracks_plain [.stableGate] (s.steady_optionalDelay _ _ _) (s.drives_stableGate source)
      (by decide) hm).bind allHeed_append fun _ m hm => ?_
    exact tracks_plain [.completion] (.emit _) (fun _ => rfl) (by decide) hm
  exact tracked.writes

end Sequencer

/-- A sensor never comes out unguarded or wrongly negated, and no stage is confirmed without one.
From every memory the look-up of a sensor is exactly what its name stands for. Wherever the rungs of
an operation lead to its confirmed start, its finish or a speed step, they wait for at least one
contact of the sensor configured there: in series after the load, or, before a speed step, after the
load of the rung that runs the step's timer. -/
theorem Context.sensing_guarded {σ : Type} (c : Context σ) (m : σ) :
    (∀ owner name count scope, ∃ underscores base, SensorName name underscores base ∧
      c.LookedUp m m owner underscores base count scope (c.sensors owner name count scope)) ∧
    ∀ o b, c.snapshot.block? .operation o.id = some b →
      ∀ before r after, ((c.operation o).run m).rungs = before ++ r :: after →
        c.Heeds m o b before r := by
  refine ⟨fun owner name count scope => c.sensors_exact owner name count scope .start,
    fun o b found before r after written => ?_⟩
  obtain ⟨none, _⟩ | ⟨t, b', scope, _, fits, rungs, _⟩ := c.operation_cases o m
  · rw [none] at written
    simp at written
  · have own : some b' = some b := fits.found.symm.trans found
    cases own
    rw [rungs] at written
    exact Sequencer.allHeed_sequence (s := ⟨c, o, t, b, scope⟩) .start before r after written

end Rungs
