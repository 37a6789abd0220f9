import Mathlib.Data.List.ReduceOption
import Rungs.Operation.Sequence
import Rungs.Proofs.Lookup
import Rungs.Proofs.Rung

/-! The vocabulary of an operation: what its rungs may read, and what they may do. It drives bits of
its own block and timers only; besides these it reads the details that carry it out, the shared
signals, and its sensors. -/

namespace Rungs

/-- The sensors that an operation names. -/
def Operation.sensorNames (o : Operation) : List String :=
  (o.control :: o.start :: o.finish :: o.speedSensors.map some).filterMap Text.configured?

theorem Operation.mem_sensorNames_of_control {o : Operation} {name : String}
    (h : Text.configured? o.control = some name) : name ∈ o.sensorNames :=
  List.mem_filterMap.mpr ⟨o.control, by simp, h⟩

theorem Operation.mem_sensorNames_of_start {o : Operation} {name : String}
    (h : Text.configured? o.start = some name) : name ∈ o.sensorNames :=
  List.mem_filterMap.mpr ⟨o.start, by simp, h⟩

theorem Operation.mem_sensorNames_of_finish {o : Operation} {name : String}
    (h : Text.configured? o.finish = some name) : name ∈ o.sensorNames :=
  List.mem_filterMap.mpr ⟨o.finish, by simp, h⟩

theorem Operation.mem_sensorNames_of_speed {o : Operation} {name : String} {i : Nat}
    (h : Text.configured? o.speedSensors[i]? = some name) : name ∈ o.sensorNames := by
  cases e : o.speedSensors[i]? with
  | none =>
    rw [e] at h
    cases h
  | some sensor =>
    rw [e] at h
    refine List.mem_filterMap.mpr ⟨some sensor, ?_, h⟩
    have listed : sensor ∈ o.speedSensors := List.mem_of_getElem? e
    simp [listed]

/-- The roles that an operation of any class uses, whatever timers it has. -/
def OperationRole.unconditional : List OperationRole :=
  OperationTemplate.commonRoles.filter (· != .deepSeat)

namespace Sequencer

variable {σ : Type} (s : Sequencer σ)

/-- A role that the template has. A role that only a timer brings in counts with that timer. -/
structure Uses (role : OperationRole) : Prop where
  mem : role ∈ s.template.roles
  seated : role = .deepSeat → ∃ t, s.timer .deepSeat = .found t
  timed : ∀ step, role = .speedStep step → ∃ t, s.timer (.speedChange step) = .found t

inductive Reads (initial : σ) : Contact → Prop
  | own {role : OperationRole} (h : s.Uses role) : Reads initial (s.contact role)
  | unfinished : Reads initial (s.inverted .finishDetected)
  | running {d : Detail} {b : Block}
      (mem : d ∈ s.context.snapshot.detailsOfOperation s.operation.id)
      (found : s.context.snapshot.block? .detail d.id = some b) :
      Reads initial (b.contact DetailRole.running)
  | incomplete {d : Detail} {b : Block}
      (mem : d ∈ s.context.snapshot.detailsOfOperation s.operation.id)
      (found : s.context.snapshot.block? .detail d.id = some b) :
      Reads initial (b.inverted DetailRole.complete)
  | off : Reads initial s.context.alwaysOff
  | reset : Reads initial s.resetSignal
  | pause : Reads initial (.inverted s.context.settings.pauseSignal)
  | timer {category : TimerCategory} {t : Timer} (found : s.timer category = .found t) :
      Reads initial (.plain (Device.timer t.number))
  | sensor {name : String} {c : Contact} (mem : name ∈ s.operation.sensorNames)
      (h : s.context.Senses initial s.operation.owner s.scope name c) :
      Reads initial c

inductive Acts : Action → Prop
  | out {role : OperationRole} (h : s.Uses role) : Acts (.out (s.bit role))
  | pulse {role : OperationRole} (h : s.Uses role) : Acts (.pulse (s.bit role))
  | delay {category : TimerCategory} {t : Timer} (found : s.timer category = .found t) :
      Acts (.delay t.number t.preset)

/-- A rung within the vocabulary of the operation. -/
abbrev Proper (initial : σ) (r : Rung) : Prop := r.Within (s.Reads initial) s.Acts

/-- An emission that stays within the vocabulary, with what holds of its answer. -/
abbrev Speaks (initial : σ) {α : Type} (x : Emission σ α) (Q : α → Prop) : Prop :=
  x.Emits (s.context.Reached initial) (s.Proper initial) Q

variable {initial : σ}

theorem uses_common (role : OperationRole) (h : OperationRole.unconditional.contains role = true) :
    s.Uses role := by
  obtain ⟨common, plain⟩ := List.mem_filter.mp (List.contains_iff_mem.mp h)
  refine ⟨?_, ?_, ?_⟩
  · simp only [OperationTemplate.roles, List.mem_append]
    exact .inl (.inl (.inl common))
  · rintro rfl
    cases plain
  · rintro step rfl
    simp [OperationTemplate.commonRoles] at common

/-- A role that no timer decides on is used wherever the template has it. -/
theorem uses_of_mem {role : OperationRole} (mem : role ∈ s.template.roles) (flat : role ≠ .deepSeat)
    (plain : ∀ step, role ≠ .speedStep step) : s.Uses role :=
  ⟨mem, fun seat => absurd seat flat, fun step timed => absurd timed (plain step)⟩

theorem uses_hold (h : s.template = .retention) : s.Uses .hold :=
  ⟨by simp [OperationTemplate.roles, h], nofun, nofun⟩

theorem uses_positioning {role : OperationRole} (h : s.template.isPositioning = true)
    (hr : role = .positioningStart ∨ role = .positioningBusy) : s.Uses role := by
  refine ⟨?_, ?_, ?_⟩
  · rcases hr with rfl | rfl <;> simp [OperationTemplate.roles, h]
  · rintro rfl
    simp at hr
  · rintro step rfl
    simp at hr

theorem uses_speedStep {step : Step} {t : Timer} (mem : step ∈ s.template.steps)
    (found : s.timer (.speedChange step) = .found t) : s.Uses (.speedStep step) := by
  refine ⟨by simp [OperationTemplate.roles, mem], nofun, ?_⟩
  rintro other e
  cases e
  exact ⟨t, found⟩

theorem uses_deepSeat {t : Timer} (found : s.timer .deepSeat = .found t) : s.Uses .deepSeat :=
  ⟨by simp [OperationTemplate.roles, OperationTemplate.commonRoles], fun _ => ⟨t, found⟩,
    nofun⟩

/-! ## Rungs -/

theorem proper_latch {source : Contact} {conditions : List Contact} {target : OperationRole}
    (hs : s.Reads initial source) (hc : ∀ c ∈ conditions, s.Reads initial c) (ht : s.Uses target) :
    s.Proper initial (s.latch source conditions target) := by
  refine Rung.within_start hs (fun l mem => ?_) (.out ht)
  rcases List.mem_append.mp mem with mem | mem
  · exact Rung.linkWithin_series hc l mem
  · simp only [List.mem_cons, List.not_mem_nil, or_false] at mem
    rcases mem with rfl | rfl
    · exact Reads.own ht
    · exact Reads.own (s.uses_common .resetGate rfl)

theorem proper_direct {source : OperationRole} {last : Action} (hs : s.Uses source)
    (hl : s.Acts last) : s.Proper initial (.start (s.contact source) [] last) :=
  Rung.within_start (.own hs) (fun l mem => by cases mem) hl

theorem proper_timerRungs {category : TimerCategory} {t : Timer} {source target : OperationRole}
    (found : s.timer category = .found t) (hs : s.Uses source) (ht : s.Uses target) :
    ∀ r ∈ timerRungs t (s.bit source) (s.bit target), s.Proper initial r := by
  intro r mem
  simp only [timerRungs, List.mem_cons, List.not_mem_nil, or_false] at mem
  rcases mem with rfl | rfl
  · exact s.proper_direct hs (.delay found)
  · exact Rung.within_start (.timer found) (fun l mem => by cases mem) (.out ht)

/-! ## Segments -/

open Emission

theorem emits_optionalDelay {category : TimerCategory} {source target : OperationRole}
    (hs : s.Uses source) (ht : s.Uses target) :
    s.Speaks initial (s.optionalDelay category source target) fun _ => True := by
  unfold optionalDelay
  split
  next t found => exact Emits.emitAll (s.proper_timerRungs found hs ht) trivial
  next => exact Emits.emit (s.proper_direct hs (.out ht)) trivial
  next =>
    exact (Emits.warn (Q := fun _ => True) trivial).bind fun _ _ =>
      Emits.emit (s.proper_direct hs (.out ht)) trivial

theorem emits_sensors {name : String} {count : Option UInt32}
    (mem : name ∈ s.operation.sensorNames) :
    s.Speaks initial (s.sensors name count) fun contacts => ∀ c ∈ contacts, s.Reads initial c :=
  (s.context.emits_sensors _ name count s.scope).imp fun _ known c inside =>
    .sensor mem (known c inside)

theorem emits_resetGate : s.Speaks initial s.resetGate fun _ => True := by
  unfold resetGate
  refine (Emits.mapM (R := fun _ chain => ∀ found, chain = some found →
    ∀ c ∈ found.contacts, s.Reads initial c) fun d mem => ?_).bind fun active known =>
      Emits.emit (Rung.within_under (Rung.within_anyOf ?_ .off ?_ ?_)) trivial
  · unfold activeDetail
    split
    next b found =>
      refine Emits.pure fun chain eq c inside => ?_
      rw [← Option.some.inj eq] at inside
      simp only [Chain.contacts, List.mem_cons, List.not_mem_nil, or_false] at inside
      rcases inside with rfl | rfl
      · exact .running mem found
      · exact .incomplete mem found
    next =>
      exact (Emits.warn (Q := fun _ => True) trivial).bind fun _ _ =>
        Emits.pure fun found e => by cases e
  · intro chain mem
    obtain ⟨_, _, holds⟩ := known (some chain) (List.reduceOption_mem_iff.mp mem)
    exact holds chain rfl
  · intro l mem
    rw [List.mem_singleton.mp mem]
    exact Reads.reset
  · exact .out (s.uses_common .resetGate rfl)

/-- The chain of a detail that has a block. -/
def activeChain (d : Detail) : Option Chain :=
  (s.context.snapshot.block? .detail d.id).map fun b =>
    ⟨b.contact DetailRole.running, [b.inverted DetailRole.complete]⟩

theorem returns_activeDetail (d : Detail) (m : σ) :
    Returns (s.activeDetail d) m (s.activeChain d) [] m := by
  unfold activeDetail activeChain
  split
  next b found =>
    rw [found]
    exact .pure
  next none =>
    rw [none]
    exact .bind .warn .pure

/-- The reset gate is one rung, whatever details there are. -/
theorem returns_resetGate (m : σ) : Returns s.resetGate m () [Rung.under s.title <|
    .anyOf ((s.context.snapshot.detailsOfOperation s.operation.id).map s.activeChain).reduceOption
      s.context.alwaysOff [.series s.resetSignal] (.out (s.bit .resetGate))] m :=
  .bind (.mapM (fun d => s.returns_activeDetail d m) _) .emit

theorem emits_hold (h : s.template = .retention) : s.Speaks initial s.hold fun _ => True := by
  refine Emits.emit (Rung.within_start (.own (s.uses_common .startConfirmed rfl)) ?_
    (.out (s.uses_hold h))) trivial
  intro l mem
  simp only [List.mem_cons, List.not_mem_nil, or_false] at mem
  rcases mem with rfl | rfl
  · exact Reads.own (s.uses_hold h)
  · exact Reads.reset

/-- The contacts of the control sensor, if the operation names one. -/
def controlContacts : Emission σ (List Contact) :=
  match Text.configured? s.operation.control with
  | some name => s.sensors name none
  | none => pure []

theorem startLatch_eq : s.startLatch = s.controlContacts >>= fun control =>
    .emit (s.latch (s.contact .resetGate)
      (.inverted s.context.settings.pauseSignal :: control) .startLatch) := by
  unfold startLatch controlContacts
  cases Text.configured? s.operation.control with
  | some name => dsimp only
  | none => dsimp only

theorem emits_controlContacts :
    s.Speaks initial s.controlContacts fun control => ∀ c ∈ control, s.Reads initial c := by
  unfold controlContacts
  split
  next name configured =>
    exact s.emits_sensors (Operation.mem_sensorNames_of_control configured)
  next => exact Emits.pure fun c mem => by cases mem

theorem emits_startLatch : s.Speaks initial s.startLatch fun _ => True := by
  rw [startLatch_eq]
  refine s.emits_controlContacts.bind fun control known => Emits.emit
    (s.proper_latch (.own (s.uses_common .resetGate rfl)) (fun c mem => ?_)
      (s.uses_common .startLatch rfl)) trivial
  rcases List.mem_cons.mp mem with rfl | mem
  · exact .pause
  · exact known c mem

theorem emits_positioningStart (h : s.template.isPositioning = true) :
    s.Speaks initial s.positioningStart fun _ => True :=
  Emits.emit (s.proper_direct (s.uses_common .runEnable rfl)
    (.pulse (s.uses_positioning h (.inl rfl)))) trivial

theorem emits_runEnable : s.Speaks initial s.runEnable fun _ => True := by
  refine Emits.emit (Rung.within_start (.own (s.uses_common .startLatch rfl)) ?_
    (.out (s.uses_common .runEnable rfl))) trivial
  intro l mem
  rcases List.mem_append.mp mem with mem | mem
  · split at mem
    next held =>
      rw [List.mem_singleton.mp mem]
      exact Reads.own (s.uses_hold held)
    next => cases mem
  · split at mem
    next =>
      rw [List.mem_singleton.mp mem]
      exact Reads.unfinished
    next => cases mem

theorem emits_startDelay : s.Speaks initial s.startDelay fun _ => True :=
  s.emits_optionalDelay (s.uses_common .runEnable rfl) (s.uses_common .startDelay rfl)

theorem emits_startConfirmed : s.Speaks initial s.startConfirmed fun _ => True := by
  unfold startConfirmed
  split
  next => exact Emits.halt
  next name configured =>
    exact (s.emits_sensors (Operation.mem_sensorNames_of_start configured)).bind
      fun contacts known => Emits.emit
        (s.proper_latch (.own (s.uses_common .startDelay rfl)) known
          (s.uses_common .startConfirmed rfl)) trivial

theorem emits_positioningBusy (h : s.template.isPositioning = true) :
    s.Speaks initial s.positioningBusy fun _ => True := by
  refine Emits.emit (Rung.within_start (.own (s.uses_positioning h (.inl rfl))) ?_
    (.out (s.uses_positioning h (.inr rfl)))) trivial
  intro l mem
  simp only [List.mem_cons, List.not_mem_nil, or_false] at mem
  rcases mem with rfl | rfl | rfl
  · exact Reads.own (s.uses_positioning h (.inr rfl))
  · exact Reads.unfinished
  · exact Reads.own (s.uses_common .resetGate rfl)

theorem emits_speedStep {previous : OperationRole} {step : Step} (hp : s.Uses previous)
    (mem : step ∈ s.template.steps) : s.Speaks initial (s.speedStep previous step) s.Uses := by
  unfold speedStep
  split
  next => exact Emits.halt
  next name configured =>
    split
    next => exact Emits.halt
    next => exact (Emits.warn (Q := fun _ => True) trivial).bind fun _ _ => Emits.pure hp
    next t found =>
      have own := s.uses_speedStep mem found
      refine (s.emits_sensors (Operation.mem_sensorNames_of_speed configured)).bind
        fun contacts known => (Emits.emitAll (Q := fun _ => True) (fun r inside => ?_)
          trivial).bind fun _ _ => Emits.pure own
      simp only [List.mem_cons, List.not_mem_nil, or_false] at inside
      rcases inside with rfl | rfl
      · exact Rung.within_start (.own hp) (Rung.linkWithin_series known) (.delay found)
      · exact s.proper_latch (.timer found) (fun c mem => by cases mem) own

theorem emits_finishDetected {previous : OperationRole} (hp : s.Uses previous) :
    s.Speaks initial (s.finishDetected previous) fun _ => True := by
  unfold finishDetected
  split
  next => exact Emits.halt
  next name configured =>
    exact (s.emits_sensors (Operation.mem_sensorNames_of_finish configured)).bind
      fun contacts known => Emits.emit (s.proper_latch (.own hp) known
        (s.uses_common .finishDetected rfl)) trivial

theorem emits_deepSeat : s.Speaks initial s.deepSeat s.Uses := by
  have finish : s.Uses .finishDetected := s.uses_common .finishDetected rfl
  unfold deepSeat
  split
  next t found =>
    have own := s.uses_deepSeat found
    exact (Emits.emitAll (Q := fun _ => True) (s.proper_timerRungs found finish own)
      trivial).bind fun _ _ => Emits.pure own
  next => exact Emits.pure finish
  next => exact (Emits.warn (Q := fun _ => True) trivial).bind fun _ _ => Emits.pure finish

theorem emits_completion : s.Speaks initial s.completion fun _ => True :=
  Emits.emit (s.proper_direct (s.uses_common .stableGate rfl)
    (.pulse (s.uses_common .completion rfl))) trivial

/-- The sequence with the parts that only some templates have set apart. -/
theorem sequence_eq : s.sequence = (do
    s.resetGate
    (if s.template = .retention then s.hold else pure ())
    s.startLatch
    (if s.template.isPositioning then s.positioningStart else pure ())
    s.runEnable
    s.startDelay
    s.startConfirmed
    (if s.template.isPositioning then s.positioningBusy else pure ())
    let last ← s.template.steps.foldlM s.speedStep .startConfirmed
    s.finishDetected last
    let source ← s.deepSeat
    s.stableGate source
    s.completion) := by
  simp only [sequence, ite_bind]

theorem emits_sequence : s.Speaks initial s.sequence fun _ => True := by
  rw [sequence_eq]
  refine s.emits_resetGate.bind fun _ _ => ?_
  refine (Emits.ite s.emits_hold fun _ => Emits.pure trivial).bind fun _ _ => ?_
  refine s.emits_startLatch.bind fun _ _ => ?_
  refine (Emits.ite s.emits_positioningStart fun _ => Emits.pure trivial).bind fun _ _ => ?_
  refine s.emits_runEnable.bind fun _ _ => s.emits_startDelay.bind fun _ _ => ?_
  refine s.emits_startConfirmed.bind fun _ _ => ?_
  refine (Emits.ite s.emits_positioningBusy fun _ => Emits.pure trivial).bind fun _ _ => ?_
  refine (Emits.foldlM (Q := s.Uses) (s.uses_common .startConfirmed rfl)
    fun b step mem hb => s.emits_speedStep hb mem).bind fun last used => ?_
  refine (s.emits_finishDetected used).bind fun _ _ => s.emits_deepSeat.bind fun source hs => ?_
  exact (s.emits_optionalDelay hs (s.uses_common .stableGate rfl)).bind fun _ _ =>
    s.emits_completion

end Sequencer

namespace Context

variable {σ : Type} (c : Context σ) {initial : σ} {I : σ → Prop} {o : Operation}

/-- The operation's class is known, and its block holds the roles of the class. -/
def OperationFits (o : Operation) : Prop :=
  ∃ t b, OperationTemplate.ofCode? o.categoryCode = some t ∧ c.Fits o.owner t.roles b

/-- A rung that the operation may have contributed. -/
def OperationRung (initial : σ) (o : Operation) (r : Rung) : Prop :=
  ∃ t b scope, OperationTemplate.ofCode? o.categoryCode = some t ∧ c.Fits o.owner t.roles b ∧
    (Sequencer.mk c o t b scope).Proper initial r

theorem emits_operationScope {P : Rung → Prop} :
    (c.operationScope o).Emits I P fun _ => True := by
  unfold operationScope
  split
  next => exact Emission.Emits.pure trivial
  next =>
    exact (Emission.Emits.warn (Q := fun _ => True) trivial).bind fun _ _ =>
      Emission.Emits.pure trivial

theorem returns_operationScope (o : Operation) (m : σ) :
    ∃ scope, Emission.Returns (c.operationScope o) m scope [] m := by
  unfold operationScope
  split
  · exact ⟨_, .pure⟩
  · exact ⟨"", .bind .warn .pure⟩

/-- Does something with the sequence of an operation. Its class must be known and its block must hold
the roles of the class. -/
def onSequencer {α : Type} (o : Operation) (use : Sequencer σ → Emission σ α) : Emission σ α :=
  match OperationTemplate.ofCode? o.categoryCode with
  | none => .halt (.unknownOperationCategory o.categoryCode)
  | some t => do
    let b ← c.block o.owner t.roles
    let scope ← c.operationScope o
    use ⟨c, o, t, b, scope⟩

theorem operation_eq (o : Operation) : c.operation o = c.onSequencer o (·.sequence) := rfl

/-- Whatever is done with the sequence, it either is not come to, or goes on from there without a
rung before it. -/
theorem onSequencer_cases (o : Operation) (m : σ) :
    (∃ f, ∀ {α : Type} (use : Sequencer σ → Emission σ α),
        (c.onSequencer o use).run m = { result := .error f, memory := m }) ∨
      ∃ t b scope, OperationTemplate.ofCode? o.categoryCode = some t ∧ c.Fits o.owner t.roles b ∧
        ∀ {α : Type} (use : Sequencer σ → Emission σ α),
          ((c.onSequencer o use).run m).result = ((use ⟨c, o, t, b, scope⟩).run m).result ∧
          ((c.onSequencer o use).run m).rungs = ((use ⟨c, o, t, b, scope⟩).run m).rungs := by
  unfold onSequencer
  split
  next => exact .inl ⟨_, fun _ => rfl⟩
  next t known =>
    rcases c.block_cases o.owner t.roles with ⟨f, halts⟩ | ⟨b, returns, fits⟩
    · refine .inl ⟨f, fun use => ?_⟩
      rw [halts]
      rfl
    · obtain ⟨scope, found⟩ := c.returns_operationScope o m
      refine .inr ⟨t, b, scope, known, fits, fun use => ?_⟩
      rw [returns, Emission.pure_bind, Emission.run_bind_ok found.result, found.memory,
        found.rungs]
      exact ⟨rfl, rfl⟩

theorem emits_operation : (c.operation o).Emits (c.Reached initial) (c.OperationRung initial o)
    fun _ => c.OperationFits o := by
  unfold operation
  split
  next => exact Emission.Emits.halt
  next t known =>
    refine (c.emits_block o.owner t.roles).bind fun b fits => ?_
    refine c.emits_operationScope.bind fun scope _ => ?_
    exact (Sequencer.emits_sequence ⟨c, o, t, b, scope⟩).weaken
      (fun r proper => ⟨t, b, scope, known, fits, proper⟩) fun _ _ => ⟨t, b, known, fits⟩

end Context

end Rungs
