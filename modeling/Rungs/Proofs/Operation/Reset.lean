import Rungs.Proofs.Generation
import Rungs.Proofs.Operation.Drivers

/-! A reset clears the whole operation within one scan. The reset gate is the first rung and falls
with the reset signal; of what comes after it, every role falls with the gate or with one that has
fallen before it in the same scan. `Clears` follows the sequence link by link, with the roles that
the next link hangs on. The start of a positioning is a pulse of the previous run and is left
aside. -/

namespace Rungs

/-- All outputs of the operation that the rows write are off, and so is the completion if they give
one. -/
structure Block.Cleared (b : Block) (rows : List Row) (d : Devices) : Prop where
  outputs : ∀ role : OperationRole, .out ∈ drivers (b.bit role) rows → d.bit (b.bit role) = false
  completion : drivers (b.bit OperationRole.completion) rows ≠ [] →
    d.bit (b.bit OperationRole.completion) = false

/-- None of the operation's details runs without being complete, and the signal that is always off
reads off. -/
structure Context.Idle {σ : Type} (c : Context σ) (o : Operation) (d : Devices) : Prop where
  inactive : ∀ detail ∈ c.snapshot.details, detail.operationId = some o.id →
    ∀ b, c.snapshot.block? .detail detail.id = some b →
      d.bit (b.bit DetailRole.running) = true → d.bit (b.bit DetailRole.complete) = true
  alwaysOff : d.bit c.settings.alwaysOff = false

namespace Sequencer

open Emission

variable {σ : Type} (s : Sequencer σ)

/-- What shuts the reset gate for good: the reset signal, and for all but a retention, which holds
its run past the gate, also that nothing asks for the operation. -/
def Shuts (d : Devices) : Prop :=
  d.bit s.context.settings.resetSignal = true ∨
    s.template ≠ .retention ∧ s.context.Idle s.operation d

/-- A scan of the rungs from a state that shuts the gate leaves these roles off, with all others
that the rungs decide on. -/
def Clears (needed : List OperationRole) (rungs : List Rung) : Prop :=
  s.Clear rungs → ∀ d e, s.Shuts d → Rung.AllScan rungs d e → ∀ role : OperationRole,
    (role ∈ needed ∨ role ≠ .positioningStart ∧ ∃ r ∈ rungs, s.bit role ∈ r.targets) →
      e.bit (s.bit role) = false

variable {s} {needed fewer : List OperationRole} {last next source target : OperationRole}
  {old new : List Rung} {d e : Devices} {m : σ}

/-! ## One more link -/

theorem Clears.mono (h : s.Clears needed old) (sub : fewer ⊆ needed) : s.Clears fewer old := by
  intro clear d e shuts scan role decided
  exact h clear d e shuts scan role (decided.imp_left fun mem => sub mem)

theorem Clears.all (h : s.Clears needed old) : s.Clears [] old := h.mono (List.nil_subset needed)

/-- Rungs that decide on one role leave what has been cleared of the others. -/
theorem Clears.others (h : s.Clears needed old) (drives : s.AllDrive next new)
    (clear : s.Clear (old ++ new)) (shuts : s.Shuts d) (scan : Rung.AllScan (old ++ new) d e)
    {role : OperationRole} (other : role ≠ next)
    (decided : role ∈ needed ∨
      role ≠ .positioningStart ∧ ∃ r ∈ old ++ new, s.bit role ∈ r.targets) :
    e.bit (s.bit role) = false := by
  obtain ⟨f, first, second⟩ := Rung.allScan_append.mp scan
  rw [frame_of_allDrive drives clear.right second other]
  refine h clear.left d f shuts first role (decided.imp_right ?_)
  rintro ⟨counted, r, mem, target⟩
  rcases List.mem_append.mp mem with mem | mem
  · exact ⟨counted, r, mem, target⟩
  · exact absurd target (spared_of_allDrive drives clear.right other r mem)

/-- Rungs that decide on one role take it off, if they find the needed ones off. -/
theorem Clears.extend (h : s.Clears needed old) (drives : s.AllDrive next new)
    (falls : s.Clear new → ∀ d f e, s.Shuts d → Rung.AllScan old d f →
      (∀ role ∈ needed, f.bit (s.bit role) = false) → Rung.AllScan new f e →
        e.bit (s.bit next) = false) : s.Clears (next :: needed) (old ++ new) := by
  intro clear d e shuts scan role decided
  by_cases own : role = next
  · obtain ⟨f, first, second⟩ := Rung.allScan_append.mp scan
    rw [own]
    exact falls clear.right d f e shuts first
      (fun role mem => h clear.left d f shuts first role (.inl mem)) second
  · refine h.others drives clear shuts scan own (decided.imp_left fun mem => ?_)
    exact (List.mem_cons.mp mem).resolve_left own

/-- The start of a positioning may be on or off. -/
theorem Clears.aside (h : s.Clears needed old) (drives : s.AllDrive .positioningStart new)
    (outside : .positioningStart ∉ needed) : s.Clears needed (old ++ new) := by
  intro clear d e shuts scan role decided
  have other : role ≠ .positioningStart :=
    decided.elim (fun mem same => outside (same ▸ mem)) fun counted => counted.1
  exact h.others drives clear shuts scan other decided

theorem Clears.latch {source : Contact} {conditions : List Contact} (h : s.Clears needed old)
    (gate : .resetGate ∈ needed) :
    s.Clears (target :: needed) (old ++ [s.latch source conditions target]) := by
  have drives : s.AllDrive target [s.latch source conditions target] :=
    fun r mem => List.mem_singleton.mp mem ▸ s.drivesOnly_latch _ _ target
  refine h.extend drives fun _ _ f e _ _ off scan => ?_
  rw [bit_latch scan, off _ gate, Bool.and_false]

theorem Clears.step {conditions : List Contact} {t : Timer} (h : s.Clears needed old)
    (gate : .resetGate ∈ needed) :
    s.Clears (next :: needed) (old ++ s.stepRungs last conditions t next) := by
  refine h.extend latches_stepRungs.drives fun clear _ f e _ _ off scan => ?_
  obtain ⟨free, eq⟩ := bit_stepRungs clear scan
  rw [eq, off _ gate, Bool.and_false]

theorem Clears.delay (h : s.Clears needed old) (delays : s.Delays source target new)
    (mem : source ∈ needed) : s.Clears (target :: needed) (old ++ new) := by
  refine h.extend delays.1 fun _ _ f e _ _ off scan => ?_
  rw [← Bool.not_eq_true]
  intro on
  have begun := delays.2 f e scan on
  rw [off source mem] at begun
  cases begun

/-! ## The gate -/

/-- While the gate is shut its first rung writes it off. -/
theorem falls_resetGate (shuts : s.Shuts d)
    (scan : Rung.AllScan (s.resetGate.run m).rungs d e) : e.bit (s.bit .resetGate) = false := by
  rw [(s.returns_resetGate m).rungs, Rung.allScan_single, Rung.scans_under,
    Rung.scans_anyOf] at scan
  obtain ⟨w, links⟩ := scan
  rw [List.cons_append, List.nil_append, Rung.linksRun_series, Rung.linksRun_last] at links
  obtain ⟨free, eq⟩ := links
  cases eq
  rw [Action.run, Devices.bit_setBit, if_pos rfl, resetSignal, Contact.reads_inverted]
  rcases shuts with reset | ⟨_, idle⟩
  · rw [reset]
    exact Bool.and_false _
  · have asked : (if ((s.context.snapshot.detailsOfOperation s.operation.id).map
        s.activeChain).reduceOption = [] then s.context.alwaysOff.reads d
        else ((s.context.snapshot.detailsOfOperation s.operation.id).map
          s.activeChain).reduceOption.any (·.holds d)) = false := by
      split
      · rw [Context.alwaysOff, Contact.reads_plain]
        exact idle.alwaysOff
      · rw [List.any_eq_false]
        intro chain mem
        obtain ⟨detail, listed, active⟩ := List.mem_map.mp (List.reduceOption_mem_iff.mp mem)
        obtain ⟨inside, carries⟩ := s.context.snapshot.mem_detailsOfOperation.mp listed
        obtain ⟨b, found, rfl⟩ := Option.map_eq_some_iff.mp active
        have complete := idle.inactive detail inside carries b found
        simpa [Chain.holds, Chain.contacts, Block.reads_contact, Block.reads_inverted] using
          complete
    rw [asked, Bool.false_and]

theorem clears_of_resetGate (m : σ) : s.Clears [.resetGate] (s.resetGate.run m).rungs := by
  intro clear d e shuts scan role decided
  have own : role = .resetGate := by
    by_contra other
    rcases decided with mem | ⟨_, r, mem, target⟩
    · exact other (List.mem_singleton.mp mem)
    · exact spared_of_allDrive (s.allDrive_resetGate m) clear other r mem target
  rw [own]
  exact falls_resetGate shuts scan

/-- The hold of a retention falls with the reset signal alone. It reads the signal right after the
gate, which leaves it as the scan found it. -/
theorem clears_of_hold (retention : s.template = .retention)
    (apart : s.bit .resetGate ≠ s.context.settings.resetSignal) (m m' : σ) :
    s.Clears [.hold, .resetGate] ((s.resetGate.run m).rungs ++ (s.hold.run m').rungs) := by
  refine (clears_of_resetGate m).extend (s.allDrive_hold m') fun _ d f e shuts gate _ scan => ?_
  have kept : f.bit s.context.settings.resetSignal = d.bit s.context.settings.resetSignal := by
    refine gate.frame fun r mem target => apart ?_
    rw [(s.returns_resetGate m).rungs] at mem
    rw [List.mem_singleton.mp mem, Rung.targets, Rung.actions_under, Rung.actions_anyOf] at target
    exact (List.mem_singleton.mp target).symm
  have reset : d.bit s.context.settings.resetSignal = true :=
    shuts.resolve_right fun idle => idle.1 retention
  rw [bit_hold scan, kept, reset]
  exact Bool.and_false _

/-- What the run hangs on besides its latch. -/
def gated (s : Sequencer σ) : List OperationRole :=
  .resetGate :: optional (s.template == .retention) .hold

theorem hold_mem_gated (h : s.template = .retention) : .hold ∈ s.gated := by
  simp [gated, optional, h]

/-! ## The sequence -/

section Sequence

theorem clears_sensors {name : String} {count : Option UInt32} :
    Leads (s.Clears needed) (s.sensors name count) (fun _ => s.Clears needed) (s.Clears []) :=
  Leads.silent (s.rungs_sensors name count) fun _ h => h.all

theorem clears_latch {source : Contact} {conditions : List Contact} (gate : .resetGate ∈ needed) :
    Leads (s.Clears needed) (.emit (s.latch source conditions target) : Emission σ Unit)
      (fun _ => s.Clears (target :: needed)) (s.Clears []) :=
  Leads.emit fun _ h => h.latch gate

theorem clears_delay (category : TimerCategory) (mem : source ∈ needed)
    (sub : fewer ⊆ target :: needed) :
    Leads (s.Clears needed) (s.optionalDelay category source target) (fun _ => s.Clears fewer)
      (s.Clears []) :=
  Leads.append (s.delays_optionalDelay category source target)
    (fun _ _ h delays => (h.delay delays mem).mono sub) fun _ h => h.all

theorem clears_hold (apart : s.bit .resetGate ≠ s.context.settings.resetSignal) :
    Leads (fun rungs => ∃ m, rungs = (s.resetGate.run m).rungs)
      (if s.template = .retention then s.hold else pure ())
      (fun _ => s.Clears s.gated) (s.Clears []) := by
  by_cases retention : s.template = .retention
  · have needed : s.gated ⊆ [.hold, .resetGate] := by simp [gated, optional, retention]
    rw [if_pos retention]
    refine Leads.append (P := fun new => ∃ m', new = (s.hold.run m').rungs) (fun m => ⟨m, rfl⟩)
      (fun old new first second => ?_) fun _ h => h.all
    obtain ⟨m, rfl⟩ := first
    obtain ⟨m', rfl⟩ := second
    exact (clears_of_hold retention apart m m').mono needed
  · have needed : s.gated ⊆ [.resetGate] := by simp [gated, optional, retention]
    rw [if_neg retention]
    refine Leads.pure fun rungs first => ?_
    obtain ⟨m, rfl⟩ := first
    exact (clears_of_resetGate m).mono needed

theorem clears_startLatch :
    Leads (s.Clears s.gated) s.startLatch
      (fun _ => s.Clears (.startLatch :: s.gated)) (s.Clears []) := by
  rw [startLatch_eq]
  refine Leads.bind ?_ fun control => clears_latch List.mem_cons_self
  unfold controlContacts
  split
  · exact clears_sensors
  · exact Leads.pure fun _ h => h

theorem clears_positioningStart :
    Leads (s.Clears (.startLatch :: s.gated))
      (if s.template.isPositioning then s.positioningStart else pure ())
      (fun _ => s.Clears (.startLatch :: s.gated)) (s.Clears []) := by
  have outside : OperationRole.positioningStart ∉ OperationRole.startLatch :: s.gated := by
    simp [gated, optional]
  split
  · exact Leads.append s.allDrive_positioningStart (fun _ _ h drives => h.aside drives outside)
      fun _ h => h.all
  · exact Leads.pure fun _ h => h

/-- The run falls with its latch, and in a retention with the hold as well. -/
theorem clears_runEnable :
    Leads (s.Clears (.startLatch :: s.gated)) s.runEnable
      (fun _ => s.Clears [.runEnable, .resetGate]) (s.Clears []) := by
  have falls (m : σ) (d e : Devices) (off : ∀ role ∈ .startLatch :: s.gated,
      d.bit (s.bit role) = false) (scan : Rung.AllScan (s.runEnable.run m).rungs d e) :
      e.bit (s.bit .runEnable) = false := by
    have held : (s.template == .retention && d.bit (s.bit .hold)) = false := by
      by_cases retention : s.template = .retention
      · rw [off .hold (List.mem_cons_of_mem _ (hold_mem_gated retention)), Bool.and_false]
      · rw [beq_eq_false_iff_ne.mpr retention, Bool.false_and]
    rw [bit_runEnable scan, held, off .startLatch List.mem_cons_self]
    rfl
  refine Leads.append (P := fun new => ∃ m, new = (s.runEnable.run m).rungs) (fun m => ⟨m, rfl⟩)
    (fun old new h written => ?_) fun _ h => h.all
  obtain ⟨m, rfl⟩ := written
  have clears := h.extend (s.allDrive_runEnable m) fun _ _ f e _ _ off scan => falls m f e off scan
  exact clears.mono (by simp [gated])

theorem clears_startDelay : Leads (s.Clears [.runEnable, .resetGate]) s.startDelay
    (fun _ => s.Clears [.resetGate]) (s.Clears []) :=
  clears_delay .startWait List.mem_cons_self (by simp)

theorem clears_startConfirmed :
    Leads (s.Clears [.resetGate]) s.startConfirmed (fun _ => s.Clears [.resetGate])
      (s.Clears []) := by
  unfold startConfirmed
  split
  next => exact Leads.halt fun _ h => h.all
  next =>
    refine clears_sensors.bind fun contacts => Leads.emit fun _ h => ?_
    exact (h.latch List.mem_cons_self).mono (List.subset_cons_self _ _)

theorem clears_positioningBusy :
    Leads (s.Clears [.resetGate]) (if s.template.isPositioning then s.positioningBusy else pure ())
      (fun _ => s.Clears [.resetGate]) (s.Clears []) := by
  split
  · refine Leads.append (P := fun new => ∃ m, new = (s.positioningBusy.run m).rungs)
      (fun m => ⟨m, rfl⟩) (fun old new h written => ?_) fun _ h => h.all
    obtain ⟨m, rfl⟩ := written
    have clears := h.extend (s.allDrive_positioningBusy m) fun _ _ f e _ _ off scan => by
      rw [bit_positioningBusy scan, off .resetGate List.mem_cons_self, Bool.and_false]
    exact clears.mono (List.subset_cons_self _ _)
  · exact Leads.pure fun _ h => h

theorem clears_speedStep (previous : OperationRole) (step : Step) :
    Leads (s.Clears [.resetGate]) (s.speedStep previous step) (fun _ => s.Clears [.resetGate])
      (s.Clears []) := by
  unfold speedStep
  split
  next => exact Leads.halt fun _ h => h.all
  next =>
    split
    next => exact Leads.halt fun _ h => h.all
    next => exact Leads.warn.bind fun _ => Leads.pure fun _ h => h
    next t _ =>
      refine clears_sensors.bind fun contacts => ?_
      refine Leads.bind (Leads.emitAll fun _ h => ?_) fun _ => Leads.pure fun _ h => h
      have clears : s.Clears _ (_ ++ s.stepRungs previous contacts t (.speedStep step)) :=
        h.step List.mem_cons_self
      exact clears.mono (List.subset_cons_self _ _)

theorem clears_finishDetected (previous : OperationRole) :
    Leads (s.Clears [.resetGate]) (s.finishDetected previous)
      (fun _ => s.Clears [.finishDetected]) (s.Clears []) := by
  unfold finishDetected
  split
  next => exact Leads.halt fun _ h => h.all
  next =>
    refine clears_sensors.bind fun contacts => Leads.emit fun _ h => ?_
    exact (h.latch List.mem_cons_self).mono (by simp)

theorem clears_deepSeat :
    Leads (s.Clears [.finishDetected]) s.deepSeat (fun source => s.Clears [source])
      (s.Clears []) := by
  unfold deepSeat
  split
  next t _ =>
    refine Leads.bind (Leads.emitAll fun _ h => ?_) fun _ => Leads.pure fun _ h => h
    exact (h.delay s.delays_timerRungs List.mem_cons_self).mono (by simp)
  next => exact Leads.pure fun _ h => h
  next => exact Leads.warn.bind fun _ => Leads.pure fun _ h => h

theorem clears_stableGate :
    Leads (s.Clears [source]) (s.stableGate source) (fun _ => s.Clears [.stableGate])
      (s.Clears []) :=
  clears_delay .stable List.mem_cons_self (by simp)

/-- Wherever the sequence stops, its rungs clear what they decide on. -/
theorem clears_sequence (apart : s.bit .resetGate ≠ s.context.settings.resetSignal) :
    Leads (fun rungs => rungs = []) s.sequence (fun _ => s.Clears []) (s.Clears []) := by
  have gate : Leads (fun rungs => rungs = []) s.resetGate
      (fun _ rungs => ∃ m, rungs = (s.resetGate.run m).rungs) (s.Clears []) := by
    refine ⟨fun rungs m _ none _ => ⟨m, ?_⟩, fun rungs m f none stopped => ?_⟩
    · rw [none, List.nil_append]
    · rw [(s.returns_resetGate m).result] at stopped
      cases stopped
  rw [sequence_eq]
  refine gate.bind fun _ => (clears_hold apart).bind fun _ => ?_
  refine clears_startLatch.bind fun _ => clears_positioningStart.bind fun _ => ?_
  refine clears_runEnable.bind fun _ => clears_startDelay.bind fun _ => ?_
  refine clears_startConfirmed.bind fun _ => clears_positioningBusy.bind fun _ => ?_
  refine (Leads.foldlM (J := fun _ _ => s.Clears [.resetGate])
    (fun step _ last => clears_speedStep last step) s.template.steps _).bind fun last => ?_
  refine (clears_finishDetected last).bind fun _ => clears_deepSeat.bind fun source => ?_
  refine clears_stableGate.bind fun _ => Leads.emit fun _ h => ?_
  exact (h.delay s.delays_pulse List.mem_cons_self).all

theorem clears_of_sequence (apart : s.bit .resetGate ≠ s.context.settings.resetSignal) (m : σ) :
    s.Clears [] (s.sequence.run m).rungs := by
  cases h : (s.sequence.run m).result with
  | ok => exact (clears_sequence apart).ends [] m () rfl h
  | error f => exact (clears_sequence apart).stops [] m f rfl h

/-- Only its pulse drives the start of a positioning. -/
theorem not_drives_positioningStart :
    (s.bit .positioningStart, Command.out) ∉ drives (s.sequence.run m).rungs := by
  intro mem
  obtain ⟨role, _, inside⟩ := List.mem_flatMap.mp ((s.drivesFirst_sequence m).mem mem)
  obtain ⟨command, coil, eq⟩ := List.mem_map.mp inside
  obtain ⟨same, rfl⟩ := Prod.mk.inj eq
  rw [OperationRole.bit_injective same] at coil
  cases List.mem_singleton.mp coil

/-- What the rows drive is decided on by some rung. -/
theorem Clears.cleared (clears : s.Clears [] (s.sequence.run m).rungs)
    (clear : s.Clear (s.sequence.run m).rungs) (shuts : s.Shuts d)
    (scan : Rung.AllScan (s.sequence.run m).rungs d e) :
    s.block.Cleared (streamRows (s.sequence.run m).rungs) e := by
  have driven (role : OperationRole) (command : Command) :
      command ∈ drivers (s.bit role) (streamRows (s.sequence.run m).rungs) ↔
        (s.bit role, command) ∈ drives (s.sequence.run m).rungs := by
    rw [Rung.drivers_streamRows (clear role), mem_commandsOn]
  have off (role : OperationRole) (command : Command) (other : role ≠ .positioningStart)
      (mem : (s.bit role, command) ∈ drives (s.sequence.run m).rungs) :
      e.bit (s.bit role) = false := by
    refine clears clear d e shuts scan role (.inr ⟨other, ?_⟩)
    obtain ⟨r, inside, listed⟩ := List.mem_flatMap.mp mem
    obtain ⟨a, acts, drive⟩ := List.mem_filterMap.mp listed
    exact ⟨r, inside, Rung.mem_targets.mpr ⟨a, acts, Action.target?_of_drive? drive⟩⟩
  refine ⟨fun role mem => ?_, fun nonempty => ?_⟩
  · have out := (driven role .out).mp mem
    refine off role .out (fun start => ?_) out
    exact not_drives_positioningStart (start ▸ out)
  · obtain ⟨command, mem⟩ := List.exists_mem_of_ne_nil _ nonempty
    exact off .completion command (by simp) ((driven .completion command).mp mem)

end Sequence

end Sequencer

namespace Context

variable {σ : Type} (c : Context σ) (o : Operation)

/-- Reset clears the whole operation in one scan. Every state can be scanned, and a scan that finds
the reset signal on leaves off every bit of the operation that the rows write as an output, and the
completion. So does a scan that finds no detail asking for the operation, unless the operation is a
retention. -/
theorem reset_clears (b : Block) (found : c.snapshot.block? .operation o.id = some b)
    (m : σ) (rows : List Row) (generated : rows = (((c.operation o).run m).synthesis o.owner).rows)
    (apart : ∀ role : OperationRole, b.bit role ∉ timersOf rows)
    (shared : ∀ role : OperationRole, b.bit role ≠ c.settings.resetSignal) :
    (∀ s, ∃ t, Scan.Runs rows s t) ∧
      ∀ s t, Scan.Runs rows s t →
        (s.devices.bit c.settings.resetSignal = true → b.Cleared rows t.devices) ∧
        (OperationTemplate.ofCode? o.categoryCode ≠ some .retention → c.Idle o s.devices →
          b.Cleared rows t.devices) := by
  have stream : rows = streamRows ((c.operation o).run m).rungs := generated
  refine ⟨fun s => stream ▸ Scan.exists_runs _ s, fun s t run => ?_⟩
  rcases c.operation_cases o m with ⟨none, _⟩ | ⟨k, b', scope, known, fits, written, _⟩
  · -- without rows nothing is driven
    rw [none] at stream
    have nothing : b.Cleared rows t.devices := by
      rw [stream]
      exact ⟨nofun, fun driven => absurd rfl driven⟩
    exact ⟨fun _ => nothing, fun _ _ => nothing⟩
  · have own : some b' = some b := fits.found.symm.trans found
    cases own
    rw [written] at stream
    rw [stream] at apart run ⊢
    have scan := Scan.allScan_iff_runs.mpr ⟨t.stack, run⟩
    have clears := Sequencer.clears_of_sequence (s := Sequencer.mk c o k b scope)
      (shared .resetGate) m
    refine ⟨fun reset => clears.cleared apart (.inl reset) scan, fun other idle => ?_⟩
    refine clears.cleared apart (.inr ⟨fun retention => other ?_, idle⟩) scan
    rw [known]
    exact congrArg some retention

end Context

theorem reset_clears_twoSpeeds : (∀ s, ∃ t, Scan.Runs Snapshot.TwoSpeeds.rows s t) ∧
    ∀ s t, Scan.Runs Snapshot.TwoSpeeds.rows s t →
      (s.devices.bit Snapshot.TwoSpeeds.context.settings.resetSignal = true ∨
        s.devices.bit Snapshot.TwoSpeeds.context.settings.alwaysOff = false) →
      ∀ role ∈ [OperationRole.resetGate, .startLatch, .runEnable, .startDelay, .startConfirmed,
          .speedStep 0, .speedStep 1, .finishDetected, .deepSeat, .stableGate, .completion],
        t.devices.bit (Snapshot.TwoSpeeds.block.bit role) = false := by
  have initial (role : OperationRole) :
      (Snapshot.TwoSpeeds.block.bit role).toList.head? = some 'L' := by
    simp [Block.bit, Allocation.device, Snapshot.TwoSpeeds.block, Device.toList_numbered]
  have shared (role : OperationRole) : Snapshot.TwoSpeeds.block.bit role ≠
      Snapshot.TwoSpeeds.context.settings.resetSignal := by
    intro same
    have signal := initial role
    rw [same] at signal
    revert signal
    decide
  have written : ∀ role ∈ [OperationRole.resetGate, .startLatch, .runEnable, .startDelay,
      .startConfirmed, .speedStep 0, .speedStep 1, .finishDetected, .deepSeat, .stableGate],
      .out ∈ drivers (Snapshot.TwoSpeeds.block.bit role) Snapshot.TwoSpeeds.rows := by
    decide +kernel
  have completed : drivers (Snapshot.TwoSpeeds.block.bit OperationRole.completion)
      Snapshot.TwoSpeeds.rows ≠ [] := by decide +kernel
  have idle (d : Devices)
      (off : d.bit Snapshot.TwoSpeeds.context.settings.alwaysOff = false) :
      Snapshot.TwoSpeeds.context.Idle .twoSpeeds d := ⟨fun _ mem => absurd mem List.not_mem_nil, off⟩
  obtain ⟨scannable, clears⟩ := Snapshot.TwoSpeeds.context.reset_clears .twoSpeeds
    Snapshot.TwoSpeeds.block rfl [] Snapshot.TwoSpeeds.rows rfl Snapshot.TwoSpeeds.apart shared
  refine ⟨scannable, fun s t run shuts => ?_⟩
  have cleared : Snapshot.TwoSpeeds.block.Cleared Snapshot.TwoSpeeds.rows t.devices := by
    rcases shuts with reset | off
    · exact (clears s t run).1 reset
    · exact (clears s t run).2 (by decide) (idle s.devices off)
  intro role mem
  by_cases last : role = .completion
  · rw [last]
    exact cleared.completion completed
  · have other : role ∈ [OperationRole.resetGate, .startLatch, .runEnable, .startDelay,
        .startConfirmed, .speedStep 0, .speedStep 1, .finishDetected, .deepSeat, .stableGate] := by
      simpa [last] using mem
    exact cleared.outputs role (written role other)

end Rungs
