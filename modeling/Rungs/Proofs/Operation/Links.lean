import Rungs.Operation.Sequence
import Rungs.Proofs.Scan

/-! The links of an operation's sequence in a scan: which role a group of rungs decides on, and from
which it follows. A latch follows from its source under the conditions, or from itself while the
reset gate is on; what a timer delays follows from the timer's source. -/

namespace Rungs

theorem OperationRole.bit_injective {b : Block} {p q : OperationRole} (h : b.bit p = b.bit q) :
    p = q := offset_injective (b.allocation.device_injective h)

namespace Sequencer

variable {σ : Type} (s : Sequencer σ) {d e f : Devices}

/-- No timer that runs in the rungs is a bit of the operation. -/
def Clear (rungs : List Rung) : Prop :=
  ∀ role : OperationRole, s.bit role ∉ timersOf (streamRows rungs)

/-- The rung decides on the bit of the role and on timers only. -/
def DrivesOnly (target : OperationRole) (r : Rung) : Prop :=
  ∀ a ∈ r.actions, a.target? = some (s.bit target) ∨ ∃ timer preset, a = .delay timer preset

/-- All of the bits of the operation that the rungs decide on is the bit of the role. -/
abbrev AllDrive (target : OperationRole) (rungs : List Rung) : Prop :=
  ∀ r ∈ rungs, s.DrivesOnly target r

variable {s}

theorem Clear.left {old new : List Rung} (h : s.Clear (old ++ new)) : s.Clear old := by
  intro role mem
  refine h role ?_
  rw [streamRows_append, timersOf_append]
  exact List.mem_append_left _ mem

theorem Clear.right {old new : List Rung} (h : s.Clear (old ++ new)) : s.Clear new := by
  intro role mem
  refine h role ?_
  rw [streamRows_append, timersOf_append]
  exact List.mem_append_right _ mem

theorem spared_of_allDrive {target role : OperationRole} {rungs : List Rung}
    (h : s.AllDrive target rungs) (clear : s.Clear rungs) (other : role ≠ target) :
    ∀ r ∈ rungs, s.bit role ∉ r.targets := by
  intro r mem driven
  obtain ⟨a, inside, decides⟩ := Rung.mem_targets.mp driven
  rcases h r mem a inside with own | ⟨timer, preset, rfl⟩
  · rw [own] at decides
    exact other (OperationRole.bit_injective (Option.some.inj decides)).symm
  · have same : Device.timer timer = s.bit role := Option.some.inj decides
    exact clear role (same ▸ Rung.mem_timersOf mem inside)

/-- The bits of all other roles stay as they are. -/
theorem frame_of_allDrive {target role : OperationRole} {rungs : List Rung}
    (h : s.AllDrive target rungs) (clear : s.Clear rungs) (scan : Rung.AllScan rungs d e)
    (other : role ≠ target) : e.bit (s.bit role) = d.bit (s.bit role) :=
  scan.frame (spared_of_allDrive h clear other)

variable (s)

/-! ## Latches -/

theorem reads_contact {s : Sequencer σ} {role : OperationRole} :
    (s.contact role).reads d = d.bit (s.bit role) := Block.reads_contact

theorem drivesOnly_latch (source : Contact) (conditions : List Contact) (target : OperationRole) :
    s.DrivesOnly target (s.latch source conditions target) := by
  intro a mem
  have only : a = .out (s.bit target) := by
    simpa [latch, Rung.actions_start, Rung.action?_series, Link.action?] using mem
  exact .inl (congrArg Action.target? only)

theorem scans_latch {source : Contact} {conditions : List Contact} {target : OperationRole} :
    (s.latch source conditions target).Scans d e ↔ e = d.setBit (s.bit target)
      ((source.reads d && conditions.all (·.reads d) || d.bit (s.bit target)) &&
        d.bit (s.bit .resetGate)) := by
  rw [latch, Rung.scans_start, List.append_assoc]
  simp only [List.cons_append, List.nil_append, Rung.linksRun_allSeries, Rung.linksRun_parallel,
    Rung.linksRun_series, Rung.linksRun_last, reads_contact, Action.run]
  simp

/-! ## Rungs of single roles -/

variable {s} {m : σ}

theorem bit_hold (scan : Rung.AllScan (s.hold.run m).rungs d e) :
    e.bit (s.bit .hold) = ((d.bit (s.bit .startConfirmed) || d.bit (s.bit .hold)) &&
      !d.bit s.context.settings.resetSignal) := by
  have single : Rung.AllScan [Rung.start (s.contact .startConfirmed)
      [.parallel (s.contact .hold), .series s.resetSignal] (.out (s.bit .hold))] d e := scan
  rw [Rung.allScan_single, Rung.scans_start] at single
  simp only [List.cons_append, List.nil_append, Rung.linksRun_parallel, Rung.linksRun_series,
    Rung.linksRun_last, reads_contact, resetSignal, Contact.reads_inverted] at single
  obtain ⟨w, free, eq⟩ := single
  cases eq
  simp [Action.run]

/-- A retention runs on with its hold; classes that stop at the finish do not run past it. -/
theorem bit_runEnable (scan : Rung.AllScan (s.runEnable.run m).rungs d e) :
    e.bit (s.bit .runEnable) =
      ((d.bit (s.bit .startLatch) || s.template == .retention && d.bit (s.bit .hold)) &&
        !(s.template.stopsAtFinish && d.bit (s.bit .finishDetected))) := by
  have single : Rung.AllScan [Rung.start (s.contact .startLatch)
      ((if s.template = .retention then [Link.parallel (s.contact .hold)] else []) ++
        (if s.template.stopsAtFinish then [Link.series (s.inverted .finishDetected)] else []))
      (.out (s.bit .runEnable))] d e := scan
  rw [Rung.allScan_single, Rung.scans_start, reads_contact, List.append_assoc] at single
  obtain ⟨w, links⟩ := single
  have held : Rung.LinksRun ((if s.template.stopsAtFinish then
      [Link.series (s.inverted .finishDetected)] else []) ++ [.act (.out (s.bit .runEnable))])
      (d.bit (s.bit .startLatch) || s.template == .retention && d.bit (s.bit .hold), d)
      (w, e) := by
    split at links
    next retention => simpa [Rung.linksRun_parallel, reads_contact, retention] using links
    next other =>
      have plain : (s.template == .retention) = false := beq_eq_false_iff_ne.mpr other
      simpa [plain] using links
  split at held
  next stops =>
    rw [List.cons_append, List.nil_append, Rung.linksRun_series, Rung.linksRun_last] at held
    obtain ⟨free, eq⟩ := held
    cases eq
    simp [Action.run, stops, inverted, Block.reads_inverted, bit]
  next runs =>
    rw [List.nil_append, Rung.linksRun_last] at held
    obtain ⟨free, eq⟩ := held
    cases eq
    simp [Action.run, runs]

theorem bit_positioningBusy (scan : Rung.AllScan (s.positioningBusy.run m).rungs d e) :
    e.bit (s.bit .positioningBusy) =
      ((d.bit (s.bit .positioningStart) || d.bit (s.bit .positioningBusy)) &&
        !d.bit (s.bit .finishDetected) && d.bit (s.bit .resetGate)) := by
  have single : Rung.AllScan [Rung.start (s.contact .positioningStart)
      [.parallel (s.contact .positioningBusy), .series (s.inverted .finishDetected),
       .series (s.contact .resetGate)] (.out (s.bit .positioningBusy))] d e := scan
  rw [Rung.allScan_single, Rung.scans_start] at single
  simp only [List.cons_append, List.nil_append, Rung.linksRun_parallel, Rung.linksRun_series,
    Rung.linksRun_last, reads_contact, inverted, Block.reads_inverted] at single
  obtain ⟨w, free, eq⟩ := single
  cases eq
  simp [Action.run, bit]

variable (s)

/-! ## Delays -/

theorem drivesOnly_direct {source : Contact} {target : OperationRole} :
    s.DrivesOnly target (.start source [] (.out (s.bit target))) := by
  intro a mem
  rw [List.mem_singleton.mp mem]
  exact .inl rfl

theorem drivesOnly_pulse {source : Contact} {target : OperationRole} :
    s.DrivesOnly target (.start source [] (.pulse (s.bit target))) := by
  intro a mem
  rw [List.mem_singleton.mp mem]
  exact .inl rfl

theorem drivesOnly_delay (source : Contact) (conditions : List Contact) (t : Timer)
    (target : OperationRole) :
    s.DrivesOnly target (.start source (conditions.map .series) (.delay t.number t.preset)) := by
  intro a mem
  rw [Rung.actions_start, Rung.action?_series, List.nil_append, List.mem_singleton] at mem
  exact .inr ⟨t.number, t.preset, mem⟩

theorem allDrive_timerRungs {t : Timer} {source : String} {target : OperationRole} :
    s.AllDrive target (timerRungs t source (s.bit target)) := by
  intro r mem
  simp only [timerRungs, List.mem_cons, List.not_mem_nil, or_false] at mem
  rcases mem with rfl | rfl
  · exact s.drivesOnly_delay (.plain source) [] t target
  · exact s.drivesOnly_direct

/-- What a timer delays is on only while the timer's source is. -/
theorem follows_timerRungs {t : Timer} {source target : String}
    (scan : Rung.AllScan (timerRungs t source target) d e) (on : e.bit target = true) :
    d.bit source = true := by
  simp only [timerRungs, Rung.allScan_cons, Rung.allScan_nil, Rung.scans_direct] at scan
  obtain ⟨f, ⟨free, rfl⟩, g, ⟨_, rfl⟩, rfl⟩ := scan
  simp only [Action.run, Contact.reads_plain, Devices.bit_setBit, if_true, Bool.and_eq_true] at on
  exact on.1

/-- The rungs of a delay decide on the target alone, and the target follows from the source. -/
def Delays (source target : OperationRole) (rungs : List Rung) : Prop :=
  s.AllDrive target rungs ∧
    ∀ d e, Rung.AllScan rungs d e → e.bit (s.bit target) = true → d.bit (s.bit source) = true

theorem delays_timerRungs {t : Timer} {source target : OperationRole} :
    s.Delays source target (timerRungs t (s.bit source) (s.bit target)) :=
  ⟨s.allDrive_timerRungs, fun _ _ scan on => follows_timerRungs scan on⟩

theorem delays_direct {source target : OperationRole} :
    s.Delays source target [.start (s.contact source) [] (.out (s.bit target))] := by
  refine ⟨fun r mem => List.mem_singleton.mp mem ▸ s.drivesOnly_direct, fun d e scan on => ?_⟩
  rw [Rung.allScan_single, Rung.scans_direct] at scan
  obtain ⟨free, rfl⟩ := scan
  simpa [Action.run, reads_contact] using on

theorem delays_pulse {source target : OperationRole} :
    s.Delays source target [.start (s.contact source) [] (.pulse (s.bit target))] := by
  refine ⟨fun r mem => List.mem_singleton.mp mem ▸ s.drivesOnly_pulse, fun d e scan on => ?_⟩
  rw [Rung.allScan_single, Rung.scans_direct] at scan
  obtain ⟨free, rfl⟩ := scan
  simp only [Action.run, reads_contact, Devices.bit_setBit, if_true, Bool.and_eq_true] at on
  exact on.1

theorem delays_optionalDelay (category : TimerCategory) (source target : OperationRole) (m : σ) :
    s.Delays source target ((s.optionalDelay category source target).run m).rungs := by
  unfold optionalDelay
  split
  next t found => exact s.delays_timerRungs
  next => exact s.delays_direct
  next => exact s.delays_direct

end Sequencer

end Rungs
