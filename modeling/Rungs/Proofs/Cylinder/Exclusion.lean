import Rungs.IoTable
import Rungs.Proofs.Cylinder.Layout

/-! Opposite outputs of a cylinder are never on together. Which state a scan starts from does not
matter: the coil of the second side is decided on after that of the first, and finds it as the scan
has just left it (valves), or both sides follow commands that lock each other out (motors), or
manual signals that do (servos). -/

namespace Rungs

/-- The rungs write all addresses of the wiring, and a scan of them leaves no address of one side on
together with one of the other. -/
structure Wiring.Safe (w : Wiring) (rungs : List Rung) : Prop where
  written : ∀ x ∈ w.all, x ∈ coilsOf (streamRows rungs)
  excludes : ∀ d e, Rung.AllScan rungs d e →
    ∀ g ∈ w.go, ∀ r ∈ w.back, ¬(e.bit g = true ∧ e.bit r = true)

namespace Wiring.Safe

variable {w : Wiring} {rungs more : List Rung}

theorem after (h : w.Safe rungs) : w.Safe (more ++ rungs) where
  written x mem := by
    rw [streamRows_append, coilsOf_append]
    exact List.mem_append_right _ (h.written x mem)
  excludes d e scan := by
    obtain ⟨f, _, last⟩ := Rung.allScan_append.mp scan
    exact h.excludes f e last

theorem before (h : w.Safe rungs) (spared : ∀ x ∈ w.sides, ∀ r ∈ more, x ∉ r.targets) :
    w.Safe (rungs ++ more) where
  written x mem := by
    rw [streamRows_append, coilsOf_append]
    exact List.mem_append_left _ (h.written x mem)
  excludes d e scan g hg r hr := by
    obtain ⟨f, first, last⟩ := Rung.allScan_append.mp scan
    rw [last.frame (spared g (List.mem_append_left _ hg)),
      last.frame (spared r (List.mem_append_right _ hr))]
    exact h.excludes d f first g hg r hr

end Wiring.Safe

namespace Drive

open Emission

variable {σ : Type} {d : Drive σ}

/-! ## Pairs of coils -/

section Pairs

variable {w : Wiring} {command : CylinderRole} {hold holdGo holdBack : Option CylinderRole}
  {interlocks : List Contact} {e : Devices}

theorem written_pair {hold hold' : Option CylinderRole} {command command' : CylinderRole}
    {interlocks interlocks' : List Contact} (none : w.others = []) : ∀ x ∈ w.all,
      x ∈ coilsOf (streamRows (d.coilRungs command hold interlocks w.go ++
        d.coilRungs command' hold' interlocks' w.back)) := by
  intro x mem
  rw [Wiring.all, none, List.append_nil, Wiring.sides] at mem
  rw [streamRows_append, coilsOf_append]
  rcases List.mem_append.mp mem with go | back
  · exact List.mem_append_left _ (mem_coilsOf_coilRungs go)
  · exact List.mem_append_right _ (mem_coilsOf_coilRungs back)

theorem reads_of_coilHolds (h : d.coilHolds command hold interlocks e = true) :
    ∀ c ∈ interlocks, c.reads e = true := by
  rw [coilHolds, Bool.and_eq_true, List.all_eq_true] at h
  exact h.2

theorem command_of_coilHolds (h : d.coilHolds command none interlocks e = true) :
    e.bit (d.bit command) = true := by
  rw [coilHolds, Bool.and_eq_true, Bool.or_eq_true] at h
  exact h.1.resolve_right (by simp)

/-- Once the go side is on, the back side of a valve finds its first address on. -/
theorem safe_valveRungs (apart : ∀ g ∈ w.go, g ∉ w.back) (none : w.others = []) :
    w.Safe (d.valveRungs holdGo holdBack w) where
  written := written_pair none
  excludes e f scan g hg r hr on := by
    obtain ⟨h, first, second⟩ := Rung.allScan_append.mp scan
    rw [allScan_coilRungs] at first second
    have same : ∀ x ∈ w.go, h.bit x = h.bit g := by
      intro x hx
      rw [first, Devices.bit_setBits, Devices.bit_setBits, if_pos hx, if_pos hg]
    have kept : h.bit g = true := by
      rw [← on.1, second, Devices.bit_setBits, if_neg (apart g hg)]
    have holds : d.coilHolds .backCommand holdBack (d.interlocks .goCommand w.go) h = true := by
      rw [← on.2, second, Devices.bit_setBits, if_pos hr]
    obtain ⟨x, more, eq⟩ := List.exists_cons_of_ne_nil (List.ne_nil_of_mem hg)
    have locked : Contact.inverted x ∈ d.interlocks .goCommand w.go := by
      rw [interlocks, eq]
      exact List.mem_cons_of_mem _ List.mem_cons_self
    have off : h.bit x = false := by
      simpa using reads_of_coilHolds holds _ locked
    rw [same x (eq ▸ List.mem_cons_self), kept] at off
    cases off

/-- A motor's side that is on had its command, and the other side finds it even where an address is
a command itself. -/
theorem safe_motorRungs (apart : ∀ g ∈ w.go, g ∉ w.back) (none : w.others = []) :
    w.Safe (d.motorRungs w) where
  written := written_pair none
  excludes e f scan g hg r hr on := by
    obtain ⟨h, first, second⟩ := Rung.allScan_append.mp scan
    rw [allScan_coilRungs] at first second
    have went : d.coilHolds .goCommand Option.none [d.inverted .backCommand] e = true := by
      rw [← on.1, second, Devices.bit_setBits, if_neg (apart g hg), first, Devices.bit_setBits,
        if_pos hg]
    have command : h.bit (d.bit .goCommand) = true := by
      rw [first, Devices.bit_setBits, went]
      by_cases driven : d.bit .goCommand ∈ w.go
      · exact if_pos driven
      · rw [if_neg driven]
        exact command_of_coilHolds went
    have holds : d.coilHolds .backCommand Option.none [d.inverted .goCommand] h = true := by
      rw [← on.2, second, Devices.bit_setBits, if_pos hr]
    have off := reads_of_coilHolds holds _ List.mem_cons_self
    rw [reads_inverted, command] at off
    cases off

end Pairs

/-! ## Drives with two coils -/

section Coils

variable {w : Wiring} {m : σ}

/-- What is taken for granted of a wiring: no address is on both sides, or the cylinder's bit for a
role of its class, or a timer that runs in its rows. A servo has no timer, but its manual signals
must not be such bits either. -/
structure Insulated (d : Drive σ) (k : DriveClass) (w : Wiring) (rows : List Row) : Prop where
  apart : ∀ g ∈ w.go, g ∉ w.back
  outside : ∀ x ∈ w.all, ∀ role ∈ k.roles, x ≠ d.bit role
  timeless : k ≠ .servo → ∀ x ∈ w.sides, x ∉ timersOf rows
  manual : k = .servo → ∀ role ∈ k.roles, d.manual.go ≠ d.bit role ∧ d.manual.back ≠ d.bit role

theorem safe_singleValve {hold : Option CylinderRole} (back : w.back = []) (others : w.others = []) :
    w.Safe (d.coilRungs .goCommand hold [] w.go) := by
  refine ⟨fun x mem => ?_, fun _ _ _ _ _ r mem => ?_⟩
  · rw [Wiring.all, Wiring.sides, back, others, List.append_nil, List.append_nil] at mem
    exact mem_coilsOf_coilRungs mem
  · rw [back] at mem
    cases mem

/-- The forced deceleration decides on its own bit and on its timer. -/
theorem mem_targets_slowRungs {word x : String} {r : Rung} (mem : r ∈ d.slowRungs word)
    (h : x ∈ r.targets) :
    x = d.bit .decelerate ∨ x ∈ timersOf (streamRows (d.slowRungs word)) := by
  unfold slowRungs at mem ⊢
  split at mem
  next t found =>
    rcases List.mem_cons.mp mem with rfl | last
    · have decided : x ∈ [Device.timer t.number, d.bit .decelerate] := h
      rcases List.mem_cons.mp decided with rfl | own
      · exact .inr (Rung.mem_timersOf (p := t.preset) mem List.mem_cons_self)
      · exact .inl (List.mem_singleton.mp own)
    · rw [List.mem_singleton.mp last] at h
      cases h
  next => cases mem

theorem safe_inverter {word : String} {moves : List Rung} {rows : List Row}
    (generated : rows = streamRows (d.commonRungs ++
      (d.motorRungs w ++ (moves ++ d.slowRungs word))))
    (moving : ∀ r ∈ moves, r.targets = []) (others : w.others = [])
    (insulated : d.Insulated .inverter w rows) :
    w.Safe (d.commonRungs ++ (d.motorRungs w ++ (moves ++ d.slowRungs word))) := by
  have timeless := insulated.timeless (by decide)
  refine ((safe_motorRungs insulated.apart others).before fun x side r mem driven => ?_).after
  rcases List.mem_append.mp mem with mem | mem
  · rw [moving r mem] at driven
    cases driven
  · rcases mem_targets_slowRungs mem driven with own | timer
    · exact insulated.outside x (List.mem_append_left _ side) .decelerate (by decide) own
    · refine timeless x side ?_
      rw [generated]
      simp only [streamRows_append, timersOf_append, List.mem_append]
      exact .inr (.inr (.inr timer))

end Coils

/-! ## Servos -/

section Servo

variable {w : Wiring} {m : σ} {e f : Devices}

theorem bit_injective {p q : CylinderRole} (h : d.bit p = d.bit q) : p = q :=
  CylinderRole.offset_injective (d.block.allocation.device_injective h)

/-- The manual signals' own bits are not both on. -/
def Decided (d : Drive σ) (e : Devices) : Prop :=
  ¬(e.bit (d.bit .manualGo) = true ∧ e.bit (d.bit .manualBack) = true)

/-- The rungs leave the manual signals' bits alone. -/
def SparesManual (d : Drive σ) (rungs : List Rung) : Prop :=
  ∀ r ∈ rungs, d.bit .manualGo ∉ r.targets ∧ d.bit .manualBack ∉ r.targets

theorem SparesManual.decided {rungs : List Rung} (h : d.SparesManual rungs)
    (scan : Rung.AllScan rungs e f) (decided : d.Decided e) : d.Decided f := by
  unfold Decided
  rw [scan.frame fun r mem => (h r mem).1, scan.frame fun r mem => (h r mem).2]
  exact decided

theorem spared_of_targets {r : Rung} (role : CylinderRole) (h : r.targets = [d.bit role])
    (go : .manualGo ≠ role) (back : .manualBack ≠ role) :
    d.bit .manualGo ∉ r.targets ∧ d.bit .manualBack ∉ r.targets := by
  rw [h, List.mem_singleton, List.mem_singleton]
  exact ⟨fun same => go (bit_injective same), fun same => back (bit_injective same)⟩

theorem sparesManual_coilRungs {command : CylinderRole} {hold : Option CylinderRole}
    {interlocks : List Contact} {addresses : List String}
    (outside : ∀ x ∈ addresses, ∀ role ∈ DriveClass.servo.roles, x ≠ d.bit role) :
    d.SparesManual (d.coilRungs command hold interlocks addresses) := fun _ mem =>
  ⟨fun driven => outside _ (mem_of_mem_targets_coilRungs mem driven) .manualGo (by decide) rfl,
   fun driven => outside _ (mem_of_mem_targets_coilRungs mem driven) .manualBack (by decide) rfl⟩

theorem targets_collect {motions : List Motion} {role : OperationRole} {target : CylinderRole} :
    (d.collect motions role target).targets = [d.bit target] := by
  rw [Rung.targets, collect, Rung.actions_anyOf]
  rfl

theorem scans_manualRung {signal opposite : String} {target : CylinderRole} :
    (d.manualRung signal opposite target).Scans e f ↔
      f = e.setBit (d.bit target) (e.bit signal && !e.bit opposite) := by
  rw [manualRung, Rung.scans_start]
  simp [Rung.linksRun_series, Rung.linksRun_last, Action.run]

/-- One manual signal counts only without the other. -/
theorem decided_manualRungs
    (own : d.manual.go ≠ d.bit .manualGo) (opposite : d.manual.back ≠ d.bit .manualGo)
    (scan : Rung.AllScan [d.manualRung d.manual.go d.manual.back .manualGo,
      d.manualRung d.manual.back d.manual.go .manualBack] e f) : d.Decided f := by
  simp only [Rung.allScan_cons, Rung.allScan_nil, scans_manualRung] at scan
  obtain ⟨a, rfl, b, rfl, rfl⟩ := scan
  have other : d.bit .manualGo ≠ d.bit .manualBack := fun same => by cases bit_injective same
  rintro ⟨go, back⟩
  rw [Devices.bit_setBit, if_neg other, Devices.bit_setBit, if_pos rfl] at go
  rw [Devices.bit_setBit, if_pos rfl, Devices.bit_setBit, Devices.bit_setBit,
    if_neg own, if_neg opposite] at back
  rw [Bool.and_eq_true, Bool.not_eq_true'] at go back
  rw [go.1] at back
  cases back.2

theorem decided_commonRungs
    (own : d.manual.go ≠ d.bit .manualGo) (opposite : d.manual.back ≠ d.bit .manualGo)
    (scan : Rung.AllScan d.commonRungs e f) : d.Decided f := by
  have parts : d.commonRungs = d.commonRungs.take 2 ++
      ([d.manualRung d.manual.go d.manual.back .manualGo,
        d.manualRung d.manual.back d.manual.go .manualBack] ++ d.commonRungs.drop 4) := rfl
  have spares : d.SparesManual (d.commonRungs.drop 4) := by
    intro r mem
    simp only [commonRungs, List.drop_succ_cons, List.drop_zero, List.mem_cons, List.not_mem_nil,
      or_false] at mem
    rcases mem with rfl | rfl | rfl | rfl
    · exact spared_of_targets .forcedOff targets_collect (by decide) (by decide)
    · exact spared_of_targets .goCommand rfl (by decide) (by decide)
    · exact spared_of_targets .backCommand rfl (by decide) (by decide)
    · exact spared_of_targets .outputOk rfl (by decide) (by decide)
  rw [parts] at scan
  obtain ⟨a, _, scan⟩ := Rung.allScan_append.mp scan
  obtain ⟨b, signals, rest⟩ := Rung.allScan_append.mp scan
  exact spares.decided rest (decided_manualRungs own opposite signals)

/-- The jog outputs follow the manual signals' bits. -/
theorem excludes_jogs (apart : ∀ g ∈ w.go, g ∉ w.back)
    (outside : ∀ x ∈ w.go, x ≠ d.bit .manualBack) (decided : d.Decided e)
    (scan : Rung.AllScan (d.coilRungs .manualGo none [.plain d.manual.enable] w.go ++
      d.coilRungs .manualBack none [.plain d.manual.enable] w.back) e f) :
    ∀ g ∈ w.go, ∀ r ∈ w.back, ¬(f.bit g = true ∧ f.bit r = true) := by
  intro g hg r hr on
  obtain ⟨h, first, second⟩ := Rung.allScan_append.mp scan
  rw [allScan_coilRungs] at first second
  have go : d.coilHolds .manualGo none [.plain d.manual.enable] e = true := by
    rw [← on.1, second, Devices.bit_setBits, if_neg (apart g hg), first, Devices.bit_setBits,
      if_pos hg]
  have back : d.coilHolds .manualBack none [.plain d.manual.enable] h = true := by
    rw [← on.2, second, Devices.bit_setBits, if_pos hr]
  have spared : d.bit .manualBack ∉ w.go := fun mem => outside _ mem rfl
  have held := command_of_coilHolds back
  rw [first, Devices.bit_setBits, if_neg spared] at held
  exact decided ⟨command_of_coilHolds go, held⟩

theorem safe_servo {moves : List Rung} {start brake : List String} {rows : List Row}
    (silent : ∀ r ∈ moves, r.targets = []) (others : w.others = start ++ brake)
    (insulated : d.Insulated .servo w rows) :
    w.Safe (d.commonRungs ++ (d.servoRungs moves start brake ++ d.jogRungs w)) := by
  have outside : ∀ x ∈ start ++ brake, ∀ role ∈ DriveClass.servo.roles, x ≠ d.bit role :=
    fun x mem => insulated.outside x (List.mem_append_right _ (others ▸ mem))
  have spares : d.SparesManual (d.servoRungs moves start brake) := by
    intro r mem
    simp only [servoRungs, List.mem_append, List.mem_singleton] at mem
    rcases mem with rfl | moving | starting | rfl | braking
    · exact spared_of_targets .servoStart targets_collect (by decide) (by decide)
    · rw [silent r moving]
      exact ⟨List.not_mem_nil, List.not_mem_nil⟩
    · exact sparesManual_coilRungs (fun x mem => outside x (List.mem_append_left _ mem)) r starting
    · exact spared_of_targets .brakeRelease rfl (by decide) (by decide)
    · exact sparesManual_coilRungs (fun x mem => outside x (List.mem_append_right _ mem)) r braking
  refine ⟨fun x mem => ?_, fun e f scan => ?_⟩
  · simp only [Wiring.all, Wiring.sides, others, List.mem_append] at mem
    simp only [servoRungs, jogRungs, streamRows_append, coilsOf_append, List.mem_append]
    rcases mem with (go | back) | starting | braking
    · exact .inr (.inr (.inl (mem_coilsOf_coilRungs go)))
    · exact .inr (.inr (.inr (mem_coilsOf_coilRungs back)))
    · exact .inr (.inl (.inr (.inr (.inl (mem_coilsOf_coilRungs starting)))))
    · exact .inr (.inl (.inr (.inr (.inr (.inr (mem_coilsOf_coilRungs braking))))))
  · obtain ⟨a, common, scan⟩ := Rung.allScan_append.mp scan
    obtain ⟨b, middle, jogs⟩ := Rung.allScan_append.mp scan
    obtain ⟨own, opposite⟩ := insulated.manual rfl .manualGo (by decide)
    have decided := decided_commonRungs own opposite common
    have spared : ∀ x ∈ w.go, x ≠ d.bit .manualBack := fun x mem =>
      insulated.outside x (List.mem_append_left _ (List.mem_append_left _ mem)) _ (by decide)
    exact excludes_jogs insulated.apart spared (spares.decided middle decided) jogs

end Servo

/-- Whatever its class, a drive's rungs are safe for the wiring that they were written for. -/
theorem Layout.safe {k : DriveClass} {w : Wiring} {rungs : List Rung} (layout : d.Layout w k rungs)
    (insulated : d.Insulated k w (streamRows rungs)) : w.Safe rungs := by
  cases layout with
  | singleValve hold back others => exact (safe_singleValve back others).after.after
  | doubleValve holdGo holdBack others =>
    exact (safe_valveRungs insulated.apart others).after.after
  | flowValve holdGo holdBack moves moving others =>
    refine ((safe_valveRungs insulated.apart others).after.before fun x _ r mem => ?_).after
    rw [moving r mem]
    exact List.not_mem_nil
  | motor others => exact (safe_motorRungs insulated.apart others).after
  | inverter word moves moving others => exact safe_inverter rfl moving others insulated
  | servo moves start brake moving others => exact safe_servo moving others insulated

end Drive

namespace Context

open Emission

variable {σ : Type} (c : Context σ) (cy : Cylinder)

/-- Opposite outputs of a cylinder are never on together. Every state can be scanned, and whatever
the state, after one scan no address of the go side is on together with one of the back side. The
sides are those that the cylinder resolves; where it resolves none, it has no rows. -/
theorem opposite_outputs_excluded (m : σ) (rows : List Row)
    (generated : rows = (((c.cylinder cy).run m).synthesis cy.owner).rows) :
    (∀ s, ∃ t, Scan.Runs rows s t) ∧
      (∀ f, ((c.wiring cy).run m).result = .error f → rows = []) ∧
      ∀ k b w, DriveClass.ofCode? cy.driveCode = some k →
        c.snapshot.block? .cylinder cy.id = some b → ((c.wiring cy).run m).result = .ok w →
        (c.drive cy b).Insulated k w rows →
          (∀ x ∈ w.all, x ∈ coilsOf rows) ∧
            ∀ s t, Scan.Runs rows s t → ∀ g ∈ w.go, ∀ r ∈ w.back,
              ¬(t.devices.bit g = true ∧ t.devices.bit r = true) := by
  have stream : rows = streamRows ((c.cylinder cy).run m).rungs := generated
  refine ⟨fun s => stream ▸ Scan.exists_runs _ s, fun f unwired => ?_,
    fun k b w known found ok insulated => ?_⟩
  · rw [stream, c.rungs_of_not_wired unwired]
    rfl
  · rw [(c.run_cylinder cy m).1] at stream
    rcases c.onDrive_cases cy with ⟨f, halts⟩ | ⟨k', b', known', fits, reaches⟩
    · rw [wiring, halts] at ok
      cases ok
    · cases known.symm.trans known'
      have block : b' = b := Option.some.inj (fits.found.symm.trans found)
      rw [reaches, block] at stream
      rw [wiring, reaches, block] at ok
      obtain ⟨rungs, m', run, layout⟩ := Drive.layout_output ok
      rw [run.rungs] at stream
      rw [stream] at insulated
      have safe := layout.safe insulated
      rw [stream]
      refine ⟨safe.written, fun s t run => ?_⟩
      exact safe.excludes s.devices t.devices (Scan.allScan_iff_runs.mpr ⟨t.stack, run⟩)

end Context

def Cylinder.clamp : Cylinder where
  id := 1
  number := "CY1"
  driveCode := 7

def Cylinder.axis : Cylinder where
  id := 2
  number := "CY2"
  driveCode := 14

/-- A flow valve that holds its go side for a retained operation, and a servo. -/
def Snapshot.twoDrives : Snapshot where
  cylinders := [.clamp, .axis]
  operations := [{ id := 1, cylinderId := 1, categoryCode := 2, goBack := some "G" }]
  points :=
    [{ id := 1, name := "G", address := "Y0", isOutput := true },
     { id := 2, name := "B", address := "Y1", isOutput := true },
     { id := 3, name := "PST", address := "Y2", isOutput := true },
     { id := 4, name := "BRK", address := "Y3", isOutput := true },
     { id := 5, name := "JOG+", address := "Y4", isOutput := true },
     { id := 6, name := "JOG-", address := "Y5", isOutput := true }]
  speedDevices := [⟨1, "D10"⟩, ⟨2, "D20"⟩]
  manualControls := [⟨2, "M1", "M2", "M3"⟩]
  allocations :=
    [⟨.operation, 1, "L", 0, 20⟩, ⟨.cylinder, 1, "L", 20, 13⟩, ⟨.cylinder, 2, "L", 40, 13⟩]

namespace Snapshot.TwoDrives

def context : Context (List Choice) where
  settings := {}
  resolver := IoTable.resolver { points := twoDrives.points }
  conditionIds := conditionIds []
  snapshot := twoDrives

def rows (cy : Cylinder) : List Row := (((context.cylinder cy).run []).synthesis cy.owner).rows

def block (cy : Cylinder) (start : UInt32) : Block := ⟨⟨.cylinder, cy.id, "L", start, 13⟩⟩

theorem insulated_clamp : (context.drive .clamp (block .clamp 20)).Insulated .flowValve
    { go := ["Y0"], back := ["Y1"] } (rows .clamp) where
  apart := by decide
  outside := by decide +kernel
  timeless _ := by decide +kernel
  manual := nofun

theorem insulated_axis : (context.drive .axis (block .axis 40)).Insulated .servo
    { go := ["Y4"], back := ["Y5"], others := ["Y2", "Y3"] } (rows .axis) where
  apart := by decide
  outside := by decide +kernel
  timeless other := absurd rfl other
  manual _ := by decide +kernel

end Snapshot.TwoDrives

theorem opposite_outputs_excluded_twoDrives :
    (∀ s t, Scan.Runs (Snapshot.TwoDrives.rows .clamp) s t →
        ¬(t.devices.bit "Y0" = true ∧ t.devices.bit "Y1" = true)) ∧
      ∀ s t, Scan.Runs (Snapshot.TwoDrives.rows .axis) s t →
        ¬(t.devices.bit "Y4" = true ∧ t.devices.bit "Y5" = true) := by
  have clamp := (Snapshot.TwoDrives.context.opposite_outputs_excluded .clamp [] _ rfl).2.2
    .flowValve (Snapshot.TwoDrives.block .clamp 20) _ rfl rfl rfl
    Snapshot.TwoDrives.insulated_clamp
  have axis := (Snapshot.TwoDrives.context.opposite_outputs_excluded .axis [] _ rfl).2.2
    .servo (Snapshot.TwoDrives.block .axis 40) _ rfl rfl rfl Snapshot.TwoDrives.insulated_axis
  exact ⟨fun s t run => clamp.2 s t run "Y0" List.mem_cons_self "Y1" List.mem_cons_self,
    fun s t run => axis.2 s t run "Y4" List.mem_cons_self "Y5" List.mem_cons_self⟩

end Rungs
