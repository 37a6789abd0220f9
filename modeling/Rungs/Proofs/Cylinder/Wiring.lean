import Rungs.Proofs.Cylinder.Vocabulary
import Rungs.Proofs.Scan

/-! The wiring of a cylinder: which addresses its drive resolves for its two sides, and which beside
them, asked for in the order in which generation asks. `Context.onDrive` is how a cylinder comes to
its drive; generation and wiring both go this way, so they agree on where they stop. -/

namespace Rungs

/-- The addresses that a drive has resolved. A servo's sides are its jog outputs. -/
structure Wiring where
  go : List String
  back : List String := []
  others : List String := []
deriving DecidableEq, Repr, Inhabited

def Wiring.sides (w : Wiring) : List String := w.go ++ w.back

def Wiring.all (w : Wiring) : List String := w.sides ++ w.others

namespace Drive

variable {σ : Type} (d : Drive σ)

def valveWiring : Emission σ Wiring := do
  let go ← d.outputs goOutput .goCoil
  let back ← d.outputs backOutput .backCoil
  return { go, back }

def motorWiring : Emission σ Wiring := do
  let go ← d.outputs goOutput .forward
  let back ← d.reverseOutputs
  return { go, back }

def servoWiring : Emission σ Wiring := do
  let start ← d.outputs servoStartOutput .servoStart
  let brake ← d.outputs brakeOutput .brake
  let go ← d.optionalOutput jogForwardOutput
  let back ← d.optionalOutput jogReverseOutput
  return { go := go.toList, back := back.toList, others := start ++ brake }

/-- What a drive resolves. A drive that needs a speed word and has none resolves nothing. -/
def wiring : DriveClass → Emission σ Wiring
  | .singleValve => do
    let go ← d.outputs goOutput .valve
    return { go }
  | .doubleValve => d.valveWiring
  | .flowValve => do
    let _ ← d.speedDevice
    d.valveWiring
  | .motor => d.motorWiring
  | .servo => do
    let _ ← d.speedDevice
    d.servoWiring
  | .inverter => do
    let _ ← d.speedDevice
    d.motorWiring

/-! ## Resolving writes no rung -/

section Silence

open Emission

theorem rungs_outputs (output : String) (use : OutputUse) (m : σ) :
    ((d.outputs output use).run m).rungs = [] := by
  have here : d.context.Reached m m := .start
  refine List.eq_nil_iff_forall_not_mem.mpr fun r mem => ?_
  exact (emits_outputs (P := fun _ => False) output use).rung here mem

theorem rungs_optionalOutput (output : String) (m : σ) :
    ((d.optionalOutput output).run m).rungs = [] := rfl

theorem rungs_reverseOutputs (m : σ) : (d.reverseOutputs.run m).rungs = [] := by
  have here : d.context.Reached m m := .start
  refine List.eq_nil_iff_forall_not_mem.mpr fun r mem => ?_
  exact (emits_reverseOutputs (P := fun _ => False)).rung here mem

/-- A speed word is there from the start, or nothing follows. -/
theorem speedDevice_cases : d.speedDevice = .halt .noSpeedDevice ∨
    ∃ word, d.speedDevice = pure word ∧
      ∃ speed, d.context.snapshot.speedDevice? d.cylinder.id = some speed ∧
        word = Text.trim speed.device := by
  unfold speedDevice
  split
  next speed found => exact .inr ⟨_, rfl, speed, found, rfl⟩
  next => exact .inl rfl

end Silence

/-! ## A wiring holds addresses only -/

section Addresses

open Emission

variable {d} {initial : σ}

theorem emits_valveWiring : Emits (d.context.Reached initial) (fun _ => True) d.valveWiring
    fun w => ∀ x ∈ w.all, d.Connects initial x := by
  refine (emits_outputs goOutput .goCoil).bind fun go went => ?_
  refine (emits_outputs backOutput .backCoil).bind fun back returned => Emits.pure fun x mem => ?_
  simp only [Wiring.all, Wiring.sides, List.mem_append, List.not_mem_nil, or_false] at mem
  exact mem.elim (went x) (returned x)

theorem emits_motorWiring : Emits (d.context.Reached initial) (fun _ => True) d.motorWiring
    fun w => ∀ x ∈ w.all, d.Connects initial x := by
  refine (emits_outputs goOutput .forward).bind fun go forward => ?_
  refine emits_reverseOutputs.bind fun back reverse => Emits.pure fun x mem => ?_
  simp only [Wiring.all, Wiring.sides, List.mem_append, List.not_mem_nil, or_false] at mem
  exact mem.elim (forward x) (reverse x)

theorem emits_servoWiring : Emits (d.context.Reached initial) (fun _ => True) d.servoWiring
    fun w => ∀ x ∈ w.all, d.Connects initial x := by
  refine (emits_outputs servoStartOutput .servoStart).bind fun start starts => ?_
  refine (emits_outputs brakeOutput .brake).bind fun brake brakes => ?_
  refine (emits_optionalOutput jogForwardOutput).bind fun go forward => ?_
  refine (emits_optionalOutput jogReverseOutput).bind fun back reverse => ?_
  refine Emits.pure fun x mem => ?_
  simp only [Wiring.all, Wiring.sides, List.mem_append, Option.mem_toList] at mem
  rcases mem with (inside | inside) | inside | inside
  · exact forward x inside
  · exact reverse x inside
  · exact starts x inside
  · exact brakes x inside

/-- The addresses of a wiring were all found for outputs of the cylinder. -/
theorem emits_wiring (k : DriveClass) : Emits (d.context.Reached initial) (fun _ => True)
    (d.wiring k) fun w => ∀ x ∈ w.all, d.Connects initial x := by
  cases k with
  | singleValve =>
    refine (emits_outputs goOutput .valve).bind fun go went => Emits.pure fun x mem => ?_
    simp only [Wiring.all, Wiring.sides, List.mem_append, List.not_mem_nil, or_false] at mem
    exact went x mem
  | doubleValve => exact emits_valveWiring
  | flowValve => exact emits_speedDevice.bind fun _ _ => emits_valveWiring
  | motor => exact emits_motorWiring
  | servo => exact emits_speedDevice.bind fun _ _ => emits_servoWiring
  | inverter => exact emits_speedDevice.bind fun _ _ => emits_motorWiring

end Addresses

/-! ## Only a missing speed word stops a wiring -/

section Ends

open Emission

theorem ends_outputs (output : String) (use : OutputUse) : Ends (d.outputs output use) := by
  refine .bind (d.context.ends_resolvePoints _ _) fun points => .bind (.mapM (fun point => ?_) _) fun _ =>
    .pure _
  unfold foundOutput
  split
  · exact .pure _
  · exact .bind (.warn _) fun _ => .pure none

theorem ends_valveWiring : Ends d.valveWiring :=
  .bind (d.ends_outputs _ _) fun _ => .bind (d.ends_outputs _ _) fun _ => .pure _

theorem ends_motorWiring : Ends d.motorWiring := by
  refine .bind (d.ends_outputs _ _) fun _ => .bind ?_ fun _ => .pure _
  unfold reverseOutputs
  split
  · exact .bind (.consult _) fun _ => .pure _
  · exact d.ends_outputs _ _

theorem ends_servoWiring : Ends d.servoWiring :=
  .bind (d.ends_outputs _ _) fun _ => .bind (d.ends_outputs _ _) fun _ =>
    .bind (.consult _) fun _ => .bind (.consult _) fun _ => .pure _

/-- A drive that resolves nothing stops before it has written anything. -/
theorem halts_of_not_wired {k : DriveClass} {m : σ} {f : Finding}
    (h : ((d.wiring k).run m).result = .error f) :
    ∃ f', (d.output k).run m = { result := .error f', memory := m } := by
  have stops {x : Emission σ Wiring} (ends : Ends x) : (x.run m).result ≠ .error f := by
    obtain ⟨w, ok⟩ := ends m
    rw [ok]
    exact nofun
  cases k with
  | singleValve => exact absurd h (stops (.bind (d.ends_outputs _ _) fun _ => .pure _))
  | doubleValve => exact absurd h (stops d.ends_valveWiring)
  | motor => exact absurd h (stops d.ends_motorWiring)
  | flowValve =>
    rcases d.speedDevice_cases with halts | ⟨word, returns, _⟩
    · rw [output, flowValve, halts]
      exact ⟨_, rfl⟩
    · rw [wiring, returns, Emission.pure_bind] at h
      exact absurd h (stops d.ends_valveWiring)
  | servo =>
    rcases d.speedDevice_cases with halts | ⟨word, returns, _⟩
    · rw [output, servo, halts]
      exact ⟨_, rfl⟩
    · rw [wiring, returns, Emission.pure_bind] at h
      exact absurd h (stops d.ends_servoWiring)
  | inverter =>
    rcases d.speedDevice_cases with halts | ⟨word, returns, _⟩
    · rw [output, inverter, halts]
      exact ⟨_, rfl⟩
    · rw [wiring, returns, Emission.pure_bind] at h
      exact absurd h (stops d.ends_motorWiring)

end Ends

/-! ## Coils -/

/-- The rungs of an output coil: one, if it has an address. -/
def coilRungs (command : CylinderRole) (hold : Option CylinderRole) (interlocks : List Contact) :
    List String → List Rung
  | [] => []
  | address :: more => [d.coilRung command hold interlocks address more]

section Coils

variable {d} {command : CylinderRole} {hold : Option CylinderRole} {interlocks : List Contact}
  {addresses : List String} {e f : Devices} {x : String}

theorem returns_coil {m : σ} : Emission.Returns (d.coil command hold interlocks addresses) m ()
    (d.coilRungs command hold interlocks addresses) m := by
  cases addresses with
  | nil => exact .pure
  | cons address more => exact .emit

theorem actions_coilRung {address : String} {more : List String} :
    (d.coilRung command hold interlocks address more).actions =
      (address :: more).map Action.out := by
  have coils (cs : List Action) : (cs.map Link.act).filterMap Link.action? = cs := by
    rw [List.filterMap_map]
    exact List.filterMap_some
  have held : (hold.map fun role => Link.parallel (d.contact role)).toList.filterMap
      Link.action? = [] := by
    cases hold <;> rfl
  rw [coilRung, Rung.actions_start, List.filterMap_append, List.filterMap_append, held,
    Rung.action?_series, coils, List.nil_append, List.nil_append]
  exact List.dropLast_append_getLast _

theorem mem_of_mem_targets_coilRungs {r : Rung}
    (mem : r ∈ d.coilRungs command hold interlocks addresses) (h : x ∈ r.targets) :
    x ∈ addresses := by
  cases addresses with
  | nil => cases mem
  | cons address more =>
    obtain ⟨a, inside, target⟩ := Rung.mem_targets.mp h
    rw [List.mem_singleton.mp mem, actions_coilRung] at inside
    obtain ⟨y, listed, rfl⟩ := List.mem_map.mp inside
    exact Option.some.inj target ▸ listed

theorem mem_coilsOf_coilRungs (mem : x ∈ addresses) :
    x ∈ coilsOf (streamRows (d.coilRungs command hold interlocks addresses)) := by
  cases addresses with
  | nil => cases mem
  | cons address more =>
    refine Rung.mem_coilsOf List.mem_cons_self ?_
    rw [actions_coilRung]
    exact List.mem_map_of_mem mem

/-- The condition of an output coil. -/
def coilHolds (d : Drive σ) (command : CylinderRole) (hold : Option CylinderRole)
    (interlocks : List Contact) (e : Devices) : Bool :=
  (e.bit (d.bit command) || hold.any fun role => e.bit (d.bit role)) &&
    interlocks.all (·.reads e)

theorem reads_contact {role : CylinderRole} : (d.contact role).reads e = e.bit (d.bit role) :=
  Block.reads_contact

theorem reads_inverted {role : CylinderRole} :
    (d.inverted role).reads e = !e.bit (d.bit role) := Block.reads_inverted

/-- All addresses of a coil get its condition, read before any of them is written. -/
theorem allScan_coilRungs : Rung.AllScan (d.coilRungs command hold interlocks addresses) e f ↔
    f = e.setBits addresses (d.coilHolds command hold interlocks e) := by
  cases addresses with
  | nil => exact Rung.allScan_nil
  | cons address more =>
    have coils : ((address :: more).map Action.out).dropLast.map Link.act ++
        [Link.act (((address :: more).map Action.out).getLast (by simp))] =
        (address :: more).map fun x => Link.act (.out x) := by
      rw [← List.map_singleton, ← List.map_append, List.dropLast_append_getLast, List.map_map]
      rfl
    have scan {v : Bool} : (∃ w, Rung.LinksRun ((hold.map fun role =>
        Link.parallel (d.contact role)).toList ++ (interlocks.map Link.series ++
          (address :: more).map fun x => Link.act (.out x))) (v, e) (w, f)) ↔
        f = e.setBits (address :: more) ((v || hold.any fun role => e.bit (d.bit role)) &&
          interlocks.all (·.reads e)) := by
      cases hold with
      | none =>
        simp only [Option.map_none, Option.toList_none, List.nil_append, Rung.linksRun_allSeries,
          Rung.linksRun_outs]
        simp
      | some role =>
        simp only [Option.map_some, Option.toList_some, List.cons_append, List.nil_append,
          Rung.linksRun_parallel, Rung.linksRun_allSeries, Rung.linksRun_outs, reads_contact]
        simp
    rw [coilRungs, Rung.allScan_single, coilRung, Rung.scans_start, List.append_assoc,
      List.append_assoc, coils, scan, reads_contact, coilHolds]

end Coils

end Drive

/-! ## Coming to the drive -/

namespace Context

open Emission

variable {σ α : Type} (c : Context σ) {cy : Cylinder}

/-- Does something with the drive of a cylinder. Its class must be known and its block must hold the
roles of the class. -/
def onDrive (cy : Cylinder) (use : DriveClass → Drive σ → Emission σ α) : Emission σ α :=
  match DriveClass.ofCode? cy.driveCode with
  | none => .halt (.unknownDriveCode cy.driveCode)
  | some k => do
    let b ← c.block cy.owner k.roles
    use k (c.drive cy b)

/-- What a cylinder resolves. -/
def wiring (cy : Cylinder) : Emission σ Wiring := c.onDrive cy fun k d => d.wiring k

theorem onDrive_cases (cy : Cylinder) :
    (∃ f, ∀ {α : Type} (use : DriveClass → Drive σ → Emission σ α), c.onDrive cy use = .halt f) ∨
      ∃ k b, DriveClass.ofCode? cy.driveCode = some k ∧ c.Fits cy.owner k.roles b ∧
        ∀ {α : Type} (use : DriveClass → Drive σ → Emission σ α),
          c.onDrive cy use = use k (c.drive cy b) := by
  unfold onDrive
  split
  next => exact .inl ⟨_, fun _ => rfl⟩
  next k known =>
    rcases c.block_cases cy.owner k.roles with ⟨f, halts⟩ | ⟨b, returns, fits⟩
    · refine .inl ⟨f, fun use => ?_⟩
      rw [halts]
      rfl
    · refine .inr ⟨k, b, known, fits, fun use => ?_⟩
      rw [returns]
      exact Emission.pure_bind b _

theorem returns_checkDirections (motions : List Motion) (m : σ) :
    Returns (motions.forM checkDirection) m () [] m := by
  have each (x : Motion) : Steady (checkDirection x : Emission σ Unit) := by
    unfold checkDirection
    split
    · exact .pure ()
    · exact .warn _
  obtain ⟨⟨⟩, rungs, returns⟩ := Steady.forM each motions m
  have silent : rungs = [] := by
    refine List.eq_nil_iff_forall_not_mem.mpr fun r mem => ?_
    rw [← returns.rungs] at mem
    exact (Emits.forM (I := fun _ => True) (P := fun _ => False)
      fun x _ => emits_checkDirection x).rung trivial mem
  exact silent ▸ returns

theorem returns_manualSignals (cy : Cylinder) (m : σ) : Returns (c.manualSignals cy) m
    (resolveManual (c.snapshot.manualControl? cy.id) c.settings).1 [] m := by
  unfold manualSignals
  rcases resolveManual (c.snapshot.manualControl? cy.id) c.settings with ⟨signals, none | f⟩
  · exact .pure
  · exact .bind (.bind .warn .pure) .pure

/-- A cylinder writes what its drive writes, and comes to its end with it. -/
theorem run_cylinder (cy : Cylinder) (m : σ) :
    ((c.cylinder cy).run m).rungs = ((c.onDrive cy fun k d => d.output k).run m).rungs ∧
      ((c.cylinder cy).run m).result = ((c.onDrive cy fun k d => d.output k).run m).result := by
  unfold cylinder onDrive
  cases DriveClass.ofCode? cy.driveCode with
  | none => exact ⟨rfl, rfl⟩
  | some k =>
    rcases c.block_cases cy.owner k.roles with ⟨f, halts⟩ | ⟨b, returns, fits⟩
    · dsimp only
      rw [halts]
      exact ⟨rfl, rfl⟩
    · have directions := returns_checkDirections (c.snapshot.motionsOf cy.id) m
      have signals := c.returns_manualSignals cy m
      dsimp only
      rw [returns, Emission.pure_bind, Emission.pure_bind]
      constructor
      · rw [directions.rungs_bind, signals.rungs_bind]
        rfl
      · rw [directions.result_then, signals.result_then]
        rfl

/-- A cylinder is stopped before its drive, or it is left to its drive. -/
theorem cylinder_cases (cy : Cylinder) (m : σ) :
    (((c.cylinder cy).run m).rungs = [] ∧ ∃ f, ((c.cylinder cy).run m).result = .error f) ∨
      ∃ k b w, DriveClass.ofCode? cy.driveCode = some k ∧ c.Fits cy.owner k.roles b ∧
        ((c.wiring cy).run m).result = .ok w ∧ (((c.drive cy b).wiring k).run m).result = .ok w ∧
        ((c.cylinder cy).run m).rungs = (((c.drive cy b).output k).run m).rungs := by
  obtain ⟨rungs, result⟩ := c.run_cylinder cy m
  rcases c.onDrive_cases cy with ⟨f, halts⟩ | ⟨k, b, known, fits, reaches⟩
  · rw [rungs, result, halts]
    exact .inl ⟨rfl, f, rfl⟩
  · rw [reaches] at rungs result
    rw [rungs, result, wiring, reaches]
    cases wired : (((c.drive cy b).wiring k).run m).result with
    | ok w => exact .inr ⟨k, b, w, known, fits, rfl, wired, rfl⟩
    | error f =>
      obtain ⟨f', halts⟩ := (c.drive cy b).halts_of_not_wired wired
      rw [halts]
      exact .inl ⟨rfl, f', rfl⟩

/-- A cylinder that resolves nothing has no rungs. -/
theorem rungs_of_not_wired {m : σ} {f : Finding}
    (h : ((c.wiring cy).run m).result = .error f) : ((c.cylinder cy).run m).rungs = [] := by
  rcases c.cylinder_cases cy m with ⟨none, _⟩ | ⟨_, _, w, _, _, ok, _⟩
  · exact none
  · rw [h] at ok
    cases ok

end Context

end Rungs
