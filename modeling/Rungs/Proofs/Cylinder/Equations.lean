import Rungs.Proofs.Coverage
import Rungs.Proofs.Cylinder.Exclusion

/-! The bits by which a cylinder is commanded, as equations over one scan. The common rungs decide on
each of these bits once, none of a cylinder's other rungs decides on them, and each is decided on
after those that it is read from: so after a scan they stand to each other, and to what the scan
found of everything else, as the rungs say (`Context.command_equations`). -/

namespace Rungs

/-! ## Disjunctions -/

/-- Whether any of the bits is on; where there are none, another one decides. -/
def Devices.anyOn (d : Devices) (bits : List String) (otherwise : String) : Bool :=
  if bits = [] then d.bit otherwise else bits.any d.bit

theorem Devices.anyOn_congr {d e : Devices} {bits bits' : List String} {otherwise : String}
    (same : ∀ x, x ∈ bits ↔ x ∈ bits') (values : ∀ x ∈ otherwise :: bits', d.bit x = e.bit x) :
    d.anyOn bits otherwise = e.anyOn bits' otherwise := by
  obtain ⟨off, values⟩ := List.forall_mem_cons.mp values
  have empty : bits = [] ↔ bits' = [] := by
    simp only [List.eq_nil_iff_forall_not_mem, same]
  unfold anyOn
  by_cases none : bits' = []
  · rw [if_pos none, if_pos (empty.mpr none), off]
  · rw [if_neg none, if_neg (mt empty.mp none), Bool.eq_iff_iff, List.any_eq_true, List.any_eq_true]
    constructor
    · rintro ⟨x, mem, on⟩
      exact ⟨x, (same x).mp mem, values x ((same x).mp mem) ▸ on⟩
    · rintro ⟨x, mem, on⟩
      exact ⟨x, (same x).mpr mem, (values x mem).symm ▸ on⟩

/-! ## Operations that command -/

namespace Snapshot

variable (s : Snapshot)

/-- The run enables of a cylinder's operations that are suitable, among those of a known category
with a block. -/
def runEnables (cylinderId : Int32) (suits : OperationTemplate → Operation → Bool) : List String :=
  s.operations.filterMap fun o =>
    match OperationTemplate.ofCode? o.categoryCode, s.block? .operation o.id with
    | some t, some b =>
      if o.cylinderId = cylinderId ∧ suits t o then some (b.bit OperationRole.runEnable) else none
    | _, _ => none

/-- The run enables of the operations that move a cylinder to a side. -/
def commanding (cylinderId : Int32) (side : String) : List String :=
  s.runEnables cylinderId fun t o => t != .excitationOff && o.goBack.map Text.trim == some side

/-- The run enables of the operations that switch a cylinder's drive off. -/
def forcing (cylinderId : Int32) : List String :=
  s.runEnables cylinderId fun t _ => t == .excitationOff

variable {s} {cylinderId : Int32} {suits : OperationTemplate → Operation → Bool} {x : String}

theorem mem_runEnables : x ∈ s.runEnables cylinderId suits ↔ ∃ o ∈ s.operations, ∃ t b,
    o.cylinderId = cylinderId ∧ OperationTemplate.ofCode? o.categoryCode = some t ∧
      s.block? .operation o.id = some b ∧ suits t o = true ∧ b.bit OperationRole.runEnable = x := by
  rw [runEnables, List.mem_filterMap]
  constructor
  · rintro ⟨o, mem, eq⟩
    split at eq
    next t b known found =>
      by_cases commands : o.cylinderId = cylinderId ∧ suits t o = true
      · rw [if_pos commands] at eq
        exact ⟨o, mem, t, b, commands.1, known, found, commands.2, Option.some.inj eq⟩
      · rw [if_neg commands] at eq
        cases eq
    next => cases eq
  · rintro ⟨o, mem, t, b, moves, known, found, suitable, rfl⟩
    refine ⟨o, mem, ?_⟩
    simp [known, found, moves, suitable]

/-- The motions of a direction are the operations that ask for it. -/
theorem mem_runEnables_iff {direction : Direction}
    (asks : ∀ m : Motion, m.direction? = some direction ↔ suits m.template m.operation = true) :
    x ∈ (towards direction (s.motionsOf cylinderId)).map (·.block.bit OperationRole.runEnable) ↔
      x ∈ s.runEnables cylinderId suits := by
  rw [mem_runEnables, List.mem_map]
  constructor
  · rintro ⟨m, mem, rfl⟩
    obtain ⟨listed, towards⟩ := List.mem_filter.mp mem
    obtain ⟨operation, known, found⟩ := mem_motionsOf listed
    obtain ⟨inside, moves⟩ := s.mem_operationsOf.mp operation
    exact ⟨m.operation, inside, m.template, m.block, moves, known, found,
      (asks m).mp (beq_iff_eq.mp towards), rfl⟩
  · rintro ⟨o, mem, t, b, moves, known, found, suitable, rfl⟩
    refine ⟨⟨o, t, b⟩, List.mem_filter.mpr ⟨mem_motionsOf_of_found mem moves known found, ?_⟩, rfl⟩
    exact beq_iff_eq.mpr ((asks ⟨o, t, b⟩).mpr suitable)

theorem mem_commanding_iff {direction : Direction} {side : String} (nonempty : side ≠ "")
    (asks : ∀ m : Motion, m.direction? = some direction ↔
      m.template ≠ .excitationOff ∧ m.side = side) :
    x ∈ (towards direction (s.motionsOf cylinderId)).map (·.block.bit OperationRole.runEnable) ↔
      x ∈ s.commanding cylinderId side := by
  refine mem_runEnables_iff fun m => ?_
  rw [asks, Bool.and_eq_true, bne_iff_ne, beq_iff_eq, Motion.side_eq_iff nonempty]

theorem mem_forcing_iff :
    x ∈ (towards .off (s.motionsOf cylinderId)).map (·.block.bit OperationRole.runEnable) ↔
      x ∈ s.forcing cylinderId :=
  mem_runEnables_iff fun _ => Motion.direction?_iff.trans beq_iff_eq.symm

end Snapshot

/-! ## Rungs -/

/-- The bits by which a cylinder is commanded, whatever its class. -/
def Block.commandBits (b : Block) : List String := DriveClass.commonRoles.map fun role => b.bit role

namespace Drive

variable {σ : Type} {d : Drive σ} {k : DriveClass} {w : Wiring} {rest : List Rung}
  {role : CylinderRole} {a e f : Devices}

theorem scans_collect {motions : List Motion} {role : OperationRole} {target : CylinderRole} :
    (d.collect motions role target).Scans e f ↔ f = e.setBit (d.bit target)
      (e.anyOn (motions.map (·.block.bit role)) d.context.settings.alwaysOff) := by
  have condition : (if motionContacts motions role = [] then d.context.alwaysOff.reads e
      else (motionContacts motions role).any (·.holds e)) =
        e.anyOn (motions.map (·.block.bit role)) d.context.settings.alwaysOff := by
    simp [Devices.anyOn, motionContacts, Context.alwaysOff, Chain.holds, Chain.single,
      Chain.contacts, Motion.contact, Block.reads_contact, Function.comp_def]
  rw [collect, Rung.scans_anyOf, condition]
  simp [Rung.linksRun_last, Action.run]

theorem scans_command {manual auto target : CylinderRole} :
    (d.command manual auto target).Scans e f ↔ f = e.setBit (d.bit target)
      ((e.bit (d.bit manual) && e.bit d.manual.enable ||
        e.bit (d.bit auto) && e.bit d.context.settings.autoModeSignal) &&
          !e.bit (d.bit .forcedOff)) := by
  have entry : (d.command manual auto target).entryHolds e =
      (e.bit (d.bit manual) && e.bit d.manual.enable ||
        e.bit (d.bit auto) && e.bit d.context.settings.autoModeSignal) := by
    simp [command, Rung.entryHolds, Chain.holds, Chain.contacts, reads_contact]
  rw [Rung.Scans, entry]
  simp [command, Rung.linksRun_series, Rung.linksRun_last, Action.run, reads_inverted]

variable (d)

/-- The common rung that decides on a role. -/
def deciding : CylinderRole → Rung
  | .autoGo => (d.collect d.goMotions .runEnable .autoGo).under d.cylinder.displayName
  | .autoBack => d.collect d.backMotions .runEnable .autoBack
  | .manualGo => d.manualRung d.manual.go d.manual.back .manualGo
  | .manualBack => d.manualRung d.manual.back d.manual.go .manualBack
  | .forcedOff => d.collect d.offMotions .runEnable .forcedOff
  | .goCommand => d.command .manualGo .autoGo .goCommand
  | .backCommand => d.command .manualBack .autoBack .backCommand
  | _ => .start (d.contact .goCommand) [.parallel (d.contact .backCommand)] (.out (d.bit .outputOk))

theorem commonRungs_eq : d.commonRungs = DriveClass.commonRoles.map d.deciding := rfl

variable {d}

theorem targets_deciding (mem : role ∈ DriveClass.commonRoles) :
    (d.deciding role).targets = [d.bit role] := by
  simp only [DriveClass.commonRoles, List.mem_cons, List.not_mem_nil, or_false] at mem
  rcases mem with rfl | rfl | rfl | rfl | rfl | rfl | rfl | rfl
  · exact targets_collect
  · exact targets_collect
  · rfl
  · rfl
  · exact targets_collect
  · rfl
  · rfl
  · rfl

/-- The common rungs come first. -/
theorem Layout.exists_rest {rungs : List Rung} (layout : d.Layout w k rungs) :
    ∃ rest, rungs = d.commonRungs ++ rest := by
  cases layout with
  | singleValve => exact ⟨_, rfl⟩
  | doubleValve => exact ⟨_, rfl⟩
  | flowValve => exact ⟨_, rfl⟩
  | motor => exact ⟨_, rfl⟩
  | inverter => exact ⟨_, rfl⟩
  | servo => exact ⟨_, rfl⟩

/-- The rungs after the common ones leave the common roles alone. -/
theorem Layout.spares_common (layout : d.Layout w k (d.commonRungs ++ rest))
    (mem : role ∈ DriveClass.commonRoles) (outside : d.bit role ∉ w.all)
    (untimed : d.bit role ∉ timersOf (streamRows rest)) : ∀ r ∈ rest, d.bit role ∉ r.targets := by
  have injective (p q : CylinderRole) (h : Role.offset p = Role.offset q) : p = q :=
    CylinderRole.offset_injective h
  have once := driven_nodup d k
  have whole := layout.commandsOn outside
  have all : Rungs.commandsOn (d.bit role) (d.drivenBits (d.driven k)) = [.out] :=
    commandsOn_drives_of_mem injective once (List.mem_append_left _ mem)
  have common : Rungs.commandsOn (d.bit role) (d.drivenBits DriveClass.commonRoles) = [.out] :=
    commandsOn_drives_of_mem injective (List.nodup_append.mp once).1 mem
  rw [drives_append, commandsOn_append, drives_commonRungs, all, common] at whole
  have undriven : Rungs.commandsOn (d.bit role) (drives rest) = [] := (List.cons.inj whole).2
  exact Rung.spared_of_commandsOn undriven untimed

/-- A role is decided on from what the scan found outside the common roles, and from what it leaves
of those that come earlier. -/
theorem scans_deciding (earlier : List CylinderRole) (role : CylinderRole)
    (later : List CylinderRole)
    (split : DriveClass.commonRoles = earlier ++ role :: later)
    (spares : ∀ other ∈ DriveClass.commonRoles, ∀ r ∈ rest, d.bit other ∉ r.targets)
    (scan : Rung.AllScan (d.commonRungs ++ rest) a e) :
    ∃ g h, (d.deciding role).Scans g h ∧ e.bit (d.bit role) = h.bit (d.bit role) ∧
      (∀ x ∉ d.block.commandBits, g.bit x = a.bit x) ∧
        ∀ other ∈ earlier, g.bit (d.bit other) = e.bit (d.bit other) := by
  have once : DriveClass.commonRoles.Nodup := by decide
  have listed : ∀ other ∈ earlier ++ role :: later, other ∈ DriveClass.commonRoles :=
    fun other mem => split ▸ mem
  rw [commonRungs_eq, split, List.map_append, List.append_assoc, Rung.allScan_append] at scan
  rw [split, List.nodup_append] at once
  obtain ⟨g, before, scan⟩ := scan
  obtain ⟨_, distinct, differ⟩ := once
  obtain ⟨h, here, after⟩ := Rung.allScan_cons.mp scan
  -- a bit that none of some roles has is left alone by their rungs and by the rest
  have kept {roles : List CylinderRole} {other : CylinderRole}
      (sub : ∀ p ∈ roles, p ∈ DriveClass.commonRoles) (mem : other ∈ DriveClass.commonRoles)
      (outside : other ∉ roles) : ∀ r ∈ roles.map d.deciding ++ rest, d.bit other ∉ r.targets := by
    intro r inside target
    rcases List.mem_append.mp inside with inside | inside
    · obtain ⟨p, listed, rfl⟩ := List.mem_map.mp inside
      rw [targets_deciding (sub p listed), List.mem_singleton] at target
      exact outside (bit_injective target ▸ listed)
    · exact spares other mem r inside target
  refine ⟨g, h, here, ?_, fun x apart => ?_, fun other mem => ?_⟩
  · exact after.frame (kept (fun p mem => listed p (List.mem_append_right _
      (List.mem_cons_of_mem _ mem))) (listed role (by simp)) (List.nodup_cons.mp distinct).1)
  · refine before.frame fun r mem target => ?_
    obtain ⟨p, inside, rfl⟩ := List.mem_map.mp mem
    have common := listed p (List.mem_append_left _ inside)
    rw [targets_deciding common, List.mem_singleton] at target
    exact apart (List.mem_map.mpr ⟨p, common, target.symm⟩)
  · have common := listed other (List.mem_append_left _ mem)
    refine (scan.frame (kept (fun p mem => listed p (List.mem_append_right _ mem)) common ?_)).symm
    exact fun later => differ other mem other later rfl

section Values

variable (earlier : List CylinderRole) {later : List CylinderRole}
  (split : DriveClass.commonRoles = earlier ++ role :: later)
  (spares : ∀ other ∈ DriveClass.commonRoles, ∀ r ∈ rest, d.bit other ∉ r.targets)
  (scan : Rung.AllScan (d.commonRungs ++ rest) a e)

include split spares scan

/-- What is collected is what the motions' bits were, in whichever order these are listed. -/
theorem bit_collect {motions : List Motion} {bits : List String}
    (own : ∀ g h, (d.deciding role).Scans g h → (d.collect motions .runEnable role).Scans g h)
    (same : ∀ x, x ∈ motions.map (·.block.bit OperationRole.runEnable) ↔ x ∈ bits)
    (outside : ∀ x ∈ d.context.settings.alwaysOff :: bits, x ∉ d.block.commandBits) :
    e.bit (d.bit role) = a.anyOn bits d.context.settings.alwaysOff := by
  obtain ⟨g, h, here, final, found, _⟩ := scans_deciding _ _ _ split spares scan
  rw [final, scans_collect.mp (own g h here), Devices.bit_setBit, if_pos rfl]
  exact Devices.anyOn_congr same fun x mem => found x (outside x mem)

theorem bit_manualRung {signal opposite : String}
    (own : d.deciding role = d.manualRung signal opposite role)
    (outside : ∀ x ∈ [signal, opposite], x ∉ d.block.commandBits) :
    e.bit (d.bit role) = (a.bit signal && !a.bit opposite) := by
  obtain ⟨g, h, here, final, found, _⟩ := scans_deciding _ _ _ split spares scan
  rw [own, scans_manualRung] at here
  rw [final, here, Devices.bit_setBit, if_pos rfl, found signal (outside _ (by simp)),
    found opposite (outside _ (by simp))]

theorem bit_command {manual auto : CylinderRole} (own : d.deciding role = d.command manual auto role)
    (before : ∀ other ∈ [manual, auto, .forcedOff], other ∈ earlier)
    (outside : ∀ x ∈ [d.manual.enable, d.context.settings.autoModeSignal],
      x ∉ d.block.commandBits) :
    e.bit (d.bit role) = ((e.bit (d.bit manual) && a.bit d.manual.enable ||
      e.bit (d.bit auto) && a.bit d.context.settings.autoModeSignal) &&
        !e.bit (d.bit .forcedOff)) := by
  obtain ⟨g, h, here, final, found, left⟩ := scans_deciding _ _ _ split spares scan
  rw [own, scans_command] at here
  rw [final, here, Devices.bit_setBit, if_pos rfl, found d.manual.enable (outside _ (by simp)),
    found d.context.settings.autoModeSignal (outside _ (by simp)),
    left manual (before _ (by simp)), left auto (before _ (by simp)),
    left .forcedOff (before _ (by simp))]

omit split in
theorem bit_outputOk : e.bit (d.bit .outputOk) =
    (e.bit (d.bit .goCommand) || e.bit (d.bit .backCommand)) := by
  have last : DriveClass.commonRoles = DriveClass.commonRoles.dropLast ++ [.outputOk] := rfl
  obtain ⟨g, h, here, final, _, left⟩ := scans_deciding _ _ _ last spares scan
  have value : h = g.setBit (d.bit .outputOk)
      (g.bit (d.bit .goCommand) || g.bit (d.bit .backCommand)) := by
    simpa [deciding, Rung.scans_start, Rung.linksRun_parallel, Rung.linksRun_last, Action.run,
      reads_contact] using here
  rw [final, value, Devices.bit_setBit, if_pos rfl, left .goCommand (by decide),
    left .backCommand (by decide)]

end Values

end Drive

/-! ## Equations -/

/-- The signals by which a cylinder is moved by hand are those of its control, if all three are
there. Otherwise the signal that is always off stands for each of them. -/
structure Snapshot.MovedBy (s : Snapshot) (settings : Settings) (cylinderId : Int32)
    (manual : ManualSignals) : Prop where
  configured : ∀ m, s.manualControl? cylinderId = some m → m.isComplete = true →
    manual = m.signals
  otherwise : (∀ m, s.manualControl? cylinderId = some m → m.isComplete = false) →
    manual = ⟨settings.alwaysOff, settings.alwaysOff, settings.alwaysOff⟩

theorem Snapshot.movedBy_resolveManual (s : Snapshot) (settings : Settings) (cylinderId : Int32) :
    s.MovedBy settings cylinderId (resolveManual (s.manualControl? cylinderId) settings).1 := by
  unfold resolveManual
  cases found : s.manualControl? cylinderId with
  | none =>
    refine ⟨fun m eq => ?_, fun _ => rfl⟩
    rw [found] at eq
    cases eq
  | some m =>
    rw [Option.filter_some]
    by_cases complete : m.isComplete = true
    · refine ⟨fun n eq _ => ?_, fun incomplete => ?_⟩
      · rw [found] at eq
        rw [if_pos complete, Option.some.inj eq]
      · rw [incomplete m found] at complete
        cases complete
    · refine ⟨fun n eq both => ?_, fun _ => ?_⟩
      · rw [found] at eq
        exact absurd (Option.some.inj eq ▸ both) complete
      · rw [if_neg complete]
        rfl

namespace Context

variable {σ : Type} (c : Context σ) (cy : Cylinder) (b : Block) (manual : ManualSignals)

/-- Nothing that a cylinder's rows read, address or time is one of its commanding bits. -/
structure Detached (w : Wiring) (rows : List Row) : Prop where
  signals : ∀ x ∈ [c.settings.alwaysOff, c.settings.autoModeSignal, manual.go, manual.back,
    manual.enable], x ∉ b.commandBits
  operations : ∀ x ∈ c.snapshot.commanding cy.id "G" ++ c.snapshot.commanding cy.id "B" ++
    c.snapshot.forcing cy.id, x ∉ b.commandBits
  addresses : ∀ x ∈ w.all, x ∉ b.commandBits
  timers : ∀ x ∈ timersOf rows, x ∉ b.commandBits

/-- How the commanding bits stand to each other after a scan that has turned `d` into `e`. -/
structure Commands (d e : Devices) : Prop where
  autoGo : e.bit (b.bit CylinderRole.autoGo) =
    d.anyOn (c.snapshot.commanding cy.id "G") c.settings.alwaysOff
  autoBack : e.bit (b.bit CylinderRole.autoBack) =
    d.anyOn (c.snapshot.commanding cy.id "B") c.settings.alwaysOff
  forcedOff : e.bit (b.bit CylinderRole.forcedOff) =
    d.anyOn (c.snapshot.forcing cy.id) c.settings.alwaysOff
  manualGo : e.bit (b.bit CylinderRole.manualGo) = (d.bit manual.go && !d.bit manual.back)
  manualBack : e.bit (b.bit CylinderRole.manualBack) = (d.bit manual.back && !d.bit manual.go)
  goCommand : e.bit (b.bit CylinderRole.goCommand) =
    ((e.bit (b.bit CylinderRole.manualGo) && d.bit manual.enable ||
      e.bit (b.bit CylinderRole.autoGo) && d.bit c.settings.autoModeSignal) &&
        !e.bit (b.bit CylinderRole.forcedOff))
  backCommand : e.bit (b.bit CylinderRole.backCommand) =
    ((e.bit (b.bit CylinderRole.manualBack) && d.bit manual.enable ||
      e.bit (b.bit CylinderRole.autoBack) && d.bit c.settings.autoModeSignal) &&
        !e.bit (b.bit CylinderRole.forcedOff))
  outputOk : e.bit (b.bit CylinderRole.outputOk) =
    (e.bit (b.bit CylinderRole.goCommand) || e.bit (b.bit CylinderRole.backCommand))

variable {c cy b} {w : Wiring} {rest : List Rung} {a e : Devices}

theorem commands_of_allScan
    (detached : c.Detached cy b (c.drive cy b).manual w
      (streamRows ((c.drive cy b).commonRungs ++ rest)))
    (spares : ∀ role ∈ DriveClass.commonRoles, ∀ r ∈ rest, (c.drive cy b).bit role ∉ r.targets)
    (scan : Rung.AllScan ((c.drive cy b).commonRungs ++ rest) a e) :
    c.Commands cy b (c.drive cy b).manual a e := by
  have off : c.settings.alwaysOff ∉ b.commandBits := detached.signals _ (by simp)
  have auto : c.settings.autoModeSignal ∉ b.commandBits := detached.signals _ (by simp)
  have go : (c.drive cy b).manual.go ∉ b.commandBits := detached.signals _ (by simp)
  have back : (c.drive cy b).manual.back ∉ b.commandBits := detached.signals _ (by simp)
  have enable : (c.drive cy b).manual.enable ∉ b.commandBits := detached.signals _ (by simp)
  have pair {x y : String} (hx : x ∉ b.commandBits) (hy : y ∉ b.commandBits) :
      ∀ z ∈ [x, y], z ∉ b.commandBits :=
    List.forall_mem_cons.mpr ⟨hx, List.forall_mem_singleton.mpr hy⟩
  have operations {bits : List String} (listed : ∀ x ∈ bits, x ∈ c.snapshot.commanding cy.id "G" ++
      c.snapshot.commanding cy.id "B" ++ c.snapshot.forcing cy.id) :
      ∀ x ∈ c.settings.alwaysOff :: bits, x ∉ b.commandBits :=
    List.forall_mem_cons.mpr ⟨off, fun x mem => detached.operations x (listed x mem)⟩
  exact {
    autoGo := Drive.bit_collect [] rfl spares scan (fun _ _ => id)
      (fun _ => Snapshot.mem_commanding_iff (by decide) fun _ => Motion.direction?_iff)
      (operations fun x mem => List.mem_append_left _ (List.mem_append_left _ mem))
    autoBack := Drive.bit_collect [.autoGo] rfl spares scan (fun _ _ => id)
      (fun _ => Snapshot.mem_commanding_iff (by decide) fun _ => Motion.direction?_iff)
      (operations fun x mem => List.mem_append_left _ (List.mem_append_right _ mem))
    forcedOff := Drive.bit_collect [.autoGo, .autoBack, .manualGo, .manualBack] rfl spares scan
      (fun _ _ => id) (fun _ => Snapshot.mem_forcing_iff)
      (operations fun x mem => List.mem_append_right _ mem)
    manualGo := Drive.bit_manualRung [.autoGo, .autoBack] rfl spares scan rfl (pair go back)
    manualBack :=
      Drive.bit_manualRung [.autoGo, .autoBack, .manualGo] rfl spares scan rfl (pair back go)
    goCommand := Drive.bit_command [.autoGo, .autoBack, .manualGo, .manualBack, .forcedOff] rfl
      spares scan rfl (by decide) (pair enable auto)
    backCommand :=
      Drive.bit_command [.autoGo, .autoBack, .manualGo, .manualBack, .forcedOff, .goCommand] rfl
        spares scan rfl (by decide) (pair enable auto)
    outputOk := Drive.bit_outputOk spares scan }

variable (c cy)

/-- The interlock of a cylinder. Generation that comes to its end has found the cylinder's block and
wiring. If these and all signals are apart from the commanding bits, then after any scan of the
cylinder's rows, whatever it starts from, the automatic commands are on that the running operations
give, a manual command counts only without the opposite one, no command is on while an operation
forces the drive off, and the output is in order while one of the commands is on. -/
theorem command_equations (m : σ) (rows : List Row)
    (generated : rows = (((c.cylinder cy).run m).synthesis cy.owner).rows)
    (ok : ((c.cylinder cy).run m).result = .ok ()) :
    ∃ k b w manual, DriveClass.ofCode? cy.driveCode = some k ∧
      c.snapshot.block? .cylinder cy.id = some b ∧ ((c.wiring cy).run m).result = .ok w ∧
      c.snapshot.MovedBy c.settings cy.id manual ∧
      (c.Detached cy b manual w rows →
        (∀ s, ∃ t, Scan.Runs rows s t) ∧
          ∀ s t, Scan.Runs rows s t → c.Commands cy b manual s.devices t.devices) := by
  have stream : rows = streamRows ((c.cylinder cy).run m).rungs := generated
  rcases c.cylinder_cases cy m with ⟨_, f, halted⟩ | ⟨k, b, w, known, fits, wired, ends, reaches⟩
  · rw [halted] at ok
    cases ok
  · obtain ⟨rungs, m', run, layout⟩ := Drive.layout_output ends
    obtain ⟨rest, rfl⟩ := layout.exists_rest
    rw [reaches, run.rungs] at stream
    refine ⟨k, b, w, (c.drive cy b).manual, known, fits.found, wired,
      c.snapshot.movedBy_resolveManual _ _, fun detached => ?_⟩
    refine ⟨fun s => stream ▸ Scan.exists_runs _ s, fun s t scanned => ?_⟩
    rw [stream] at detached scanned
    refine commands_of_allScan detached (fun role mem => ?_)
      (Scan.allScan_iff_runs.mpr ⟨t.stack, scanned⟩)
    have own : b.bit role ∈ b.commandBits := List.mem_map_of_mem mem
    refine layout.spares_common mem (fun address => detached.addresses _ address own) fun timer => ?_
    refine detached.timers _ ?_ own
    rw [streamRows_append, timersOf_append]
    exact List.mem_append_right _ timer

end Context

namespace Snapshot.TwoDrives

/-- What the clamp does by hand is up to the signal that is always off. -/
def unmanned : ManualSignals := ⟨context.settings.alwaysOff, context.settings.alwaysOff,
  context.settings.alwaysOff⟩

theorem ended_clamp : ((context.cylinder .clamp).run []).result = .ok () := by decide +kernel

theorem ended_axis : ((context.cylinder .axis).run []).result = .ok () := by decide +kernel

theorem wired_clamp : ((context.wiring .clamp).run []).result =
    .ok { go := ["Y0"], back := ["Y1"] } := by decide +kernel

theorem wired_axis : ((context.wiring .axis).run []).result =
    .ok { go := ["Y4"], back := ["Y5"], others := ["Y2", "Y3"] } := by decide +kernel

theorem detached_clamp : context.Detached .clamp (block .clamp 20) unmanned
    { go := ["Y0"], back := ["Y1"] } (rows .clamp) where
  signals := by decide +kernel
  operations := by decide +kernel
  addresses := by decide +kernel
  timers := by decide +kernel

theorem detached_axis : context.Detached .axis (block .axis 40) ⟨"M1", "M2", "M3"⟩
    { go := ["Y4"], back := ["Y5"], others := ["Y2", "Y3"] } (rows .axis) where
  signals := by decide +kernel
  operations := by decide +kernel
  addresses := by decide +kernel
  timers := by decide +kernel

end Snapshot.TwoDrives

open Snapshot.TwoDrives in
/-- The clamp is commanded by its operation alone, and the axis by hand alone. -/
theorem command_equations_twoDrives :
    (∀ s t, Scan.Runs (rows .clamp) s t →
        context.Commands .clamp (block .clamp 20) unmanned s.devices t.devices) ∧
      ∀ s t, Scan.Runs (rows .axis) s t →
        context.Commands .axis (block .axis 40) ⟨"M1", "M2", "M3"⟩ s.devices t.devices := by
  constructor
  · obtain ⟨k, b, w, manual, _, found, wired, moved, equations⟩ :=
      context.command_equations .clamp [] _ rfl ended_clamp
    have block : block .clamp 20 = b := Option.some.inj found
    have wiring : _ = w := Except.ok.inj (wired_clamp.symm.trans wired)
    have signals : manual = unmanned := moved.otherwise nofun
    rw [signals, ← block, ← wiring] at equations
    exact (equations detached_clamp).2
  · obtain ⟨k, b, w, manual, _, found, wired, moved, equations⟩ :=
      context.command_equations .axis [] _ rfl ended_axis
    have block : block .axis 40 = b := Option.some.inj found
    have wiring : _ = w := Except.ok.inj (wired_axis.symm.trans wired)
    have control : manual = ManualControl.signals ⟨2, "M1", "M2", "M3"⟩ :=
      moved.configured _ rfl (by decide)
    have trimmed : ManualControl.signals ⟨2, "M1", "M2", "M3"⟩ = ⟨"M1", "M2", "M3"⟩ := by
      decide +kernel
    have signals := control.trans trimmed
    rw [signals, ← block, ← wiring] at equations
    exact (equations detached_axis).2

end Rungs
