import Rungs.Proofs.Cylinder.Drivers
import Rungs.Proofs.Generation
import Rungs.Proofs.Operation.Drivers
import Rungs.Proofs.Process.Drivers

/-! Complete or critical. Of every entity at most one diagnostic is critical, and that is the last.
If none is, the rows drive each role of the entity's class, but for those roles that a timer or a
held motion would have to bring in. -/

namespace Rungs

/-- At most one of the diagnostics is critical; it is the last, and on record for the owner. -/
structure Reported (owner : Owner) (ds : List Diagnostic) : Prop where
  single : criticalCount ds ≤ 1
  last : ∀ d ∈ ds, d.isCritical = true →
    ds.getLast? = some d ∧ d.kind = owner.kind ∧ d.recordId = owner.recordId

/-- The rows drive the bits of a block for some roles: each by the commands for it, and not at all if
it is left out. Bits that are among the devices `shared` are not spoken of. -/
structure Block.Covered {ρ : Type} [Role ρ] (b : Block) (roles : List ρ) (coils : ρ → List Command)
    (leftOut : ρ → Prop) (shared : List String) (rows : List Row) : Prop where
  driven : ∀ role ∈ roles, b.bit role ∉ shared → ¬leftOut role →
    drivers (b.bit role) rows = coils role
  undriven : ∀ role ∈ roles, b.bit role ∉ shared → leftOut role → drivers (b.bit role) rows = []

namespace Outcome

variable {σ α : Type}

theorem reported (x : Outcome σ α) (owner : Owner) : Reported owner (x.diagnostics owner) := by
  have warnings : ∀ d ∈ x.warnings.map owner.warning, d.isCritical = false := by
    intro d mem
    obtain ⟨f, _, rfl⟩ := List.mem_map.mp mem
    rfl
  have none : criticalCount (x.warnings.map owner.warning) = 0 := by
    rw [criticalCount, List.countP_eq_zero]
    intro d mem
    simp [warnings d mem]
  unfold diagnostics
  cases x.result with
  | ok a =>
    rw [List.append_nil]
    refine ⟨by omega, fun d mem critical => ?_⟩
    rw [warnings d mem] at critical
    cases critical
  | error f =>
    refine ⟨?_, fun d mem critical => ?_⟩
    · rw [criticalCount, List.countP_append]
      rw [criticalCount] at none
      simp only [none, Nat.zero_add]
      exact List.countP_le_length
    · rcases List.mem_append.mp mem with warning | last
      · rw [warnings d warning] at critical
        cases critical
      · rw [List.mem_singleton.mp last]
        exact ⟨List.getLast?_concat, rfl, rfl⟩

end Outcome

/-! ## Directions -/

namespace Motion

variable {m : Motion}

theorem side_eq_iff {side : String} (nonempty : side ≠ "") :
    m.side = side ↔ m.operation.goBack.map Text.trim = some side := by
  unfold Motion.side
  cases m.operation.goBack with
  | none => simp [nonempty.symm]
  | some text => simp

/-- Which motions ask for a direction. -/
def AsksFor (m : Motion) : Direction → Prop
  | .off => m.template = .excitationOff
  | .go => m.template ≠ .excitationOff ∧ m.side = "G"
  | .back => m.template ≠ .excitationOff ∧ m.side = "B"

theorem direction?_iff {direction : Direction} :
    m.direction? = some direction ↔ m.AsksFor direction := by
  unfold direction?
  by_cases off : m.template = .excitationOff
  · cases direction <;> simp [AsksFor, off]
  · by_cases go : m.side = "G"
    · cases direction <;> simp [AsksFor, off, go]
    · by_cases back : m.side = "B"
      · cases direction <;> simp [AsksFor, off, back]
      · cases direction <;> simp [AsksFor, off, go, back]

end Motion

/-! ## Roles that are left out -/

namespace Snapshot

variable (s : Snapshot)

/-- How many timers of a category an entity owns. -/
def timerCount (owner : Owner) (category : TimerCategory) : Nat :=
  (s.timers.filter fun t =>
    t.categoryId == category.id && t.ownedBy owner.kind owner.recordId).length

/-- Some operation of the cylinder is a retention of the side and has a block. -/
def Retains (cylinderId : Int32) (side : String) : Prop :=
  ∃ o ∈ s.operations, o.cylinderId = cylinderId ∧
    OperationTemplate.ofCode? o.categoryCode = some .retention ∧
    (s.block? .operation o.id).isSome = true ∧ o.goBack.map Text.trim = some side

/-- A deep seat goes without a timer or with several; a speed step is skipped only with several. -/
def LeavesOut (o : Operation) : OperationRole → Prop
  | .deepSeat => s.timerCount o.owner .deepSeat ≠ 1
  | .speedStep step => 2 ≤ s.timerCount o.owner (.speedChange step)
  | _ => False

/-- A side goes without a hold if there is nothing to hold it for, and the deceleration goes without
a timer or with several. -/
def DriveLeavesOut (cy : Cylinder) : CylinderRole → Prop
  | .retainGo => ¬s.Retains cy.id "G"
  | .retainBack => ¬s.Retains cy.id "B"
  | .decelerate => s.timerCount cy.owner .forcedDeceleration ≠ 1
  | _ => False

variable {s} {owner : Owner} {category : TimerCategory}

theorem timer_cases (s : Snapshot) (owner : Owner) (category : TimerCategory) :
    (s.timer owner.kind owner.recordId category = .missing ∧ s.timerCount owner category = 0) ∨
      (∃ t, s.timer owner.kind owner.recordId category = .found t) ∧
        s.timerCount owner category = 1 ∨
      ∃ n, s.timer owner.kind owner.recordId category = .duplicate n ∧
        2 ≤ s.timerCount owner category := by
  unfold timer timerCount
  generalize s.timers.filter (fun t =>
    t.categoryId == category.id && t.ownedBy owner.kind owner.recordId) = owned
  match owned with
  | [] => exact .inl ⟨rfl, rfl⟩
  | [t] => exact .inr (.inl ⟨⟨t, rfl⟩, rfl⟩)
  | t :: u :: rest => exact .inr (.inr ⟨_, rfl, by simp⟩)

theorem timer_found_iff (s : Snapshot) (owner : Owner) (category : TimerCategory) :
    (∃ t, s.timer owner.kind owner.recordId category = .found t) ↔
      s.timerCount owner category = 1 := by
  rcases s.timer_cases owner category with ⟨lookup, count⟩ | ⟨⟨t, lookup⟩, count⟩ |
    ⟨n, lookup, count⟩
  · simp [lookup, count]
  · simp [lookup, count]
  · have several : s.timerCount owner category ≠ 1 := by omega
    simp [lookup, several]

theorem mem_motionsOf_of_found {cylinderId : Int32} {o : Operation} {t : OperationTemplate}
    {b : Block} (mem : o ∈ s.operations) (moves : o.cylinderId = cylinderId)
    (known : OperationTemplate.ofCode? o.categoryCode = some t)
    (found : s.block? .operation o.id = some b) : ⟨o, t, b⟩ ∈ s.motionsOf cylinderId := by
  refine List.mem_filterMap.mpr ⟨o, s.mem_operationsOf.mpr ⟨mem, moves⟩, ?_⟩
  simp [motion?, known, found]

/-- The retained motions of a side are the retentions of that side. -/
theorem retained_ne_nil_iff (s : Snapshot) (cylinderId : Int32) (direction : Direction)
    (side : String) (nonempty : side ≠ "") (asks : ∀ m : Motion, m.direction? = some direction ↔
      m.template ≠ .excitationOff ∧ m.side = side) :
    retained (towards direction (s.motionsOf cylinderId)) ≠ [] ↔ s.Retains cylinderId side := by
  constructor
  · intro some
    obtain ⟨m, mem⟩ := List.exists_mem_of_ne_nil _ some
    obtain ⟨inside, template⟩ := List.mem_filter.mp mem
    obtain ⟨listed, towards⟩ := List.mem_filter.mp inside
    obtain ⟨operation, known, found⟩ := mem_motionsOf listed
    obtain ⟨mem, moves⟩ := s.mem_operationsOf.mp operation
    rw [beq_iff_eq] at template towards
    rw [template] at known
    refine ⟨m.operation, mem, moves, known, by rw [found]; rfl, ?_⟩
    exact (Motion.side_eq_iff nonempty).mp ((asks m).mp towards).2
  · rintro ⟨o, mem, moves, known, allocated, goBack⟩
    obtain ⟨b, found⟩ := Option.isSome_iff_exists.mp allocated
    have listed := mem_motionsOf_of_found mem moves known found
    have side : (⟨o, .retention, b⟩ : Motion).side = side := (Motion.side_eq_iff nonempty).mpr goBack
    have towards := (asks ⟨o, .retention, b⟩).mpr ⟨nofun, side⟩
    refine List.ne_nil_of_mem (a := ⟨o, .retention, b⟩) ?_
    exact List.mem_filter.mpr ⟨List.mem_filter.mpr ⟨listed, by simp [towards]⟩, by simp⟩

end Snapshot

namespace Context

variable {σ : Type} (c : Context σ)

/-- The roles of its class that a drive does not use are those left out. -/
theorem drive_uses_iff {cy : Cylinder} {b : Block} {k : DriveClass} {role : CylinderRole}
    (mem : role ∈ k.roles) :
    (c.drive cy b).Uses k role ↔ ¬c.snapshot.DriveLeavesOut cy role := by
  have go := c.snapshot.retained_ne_nil_iff cy.id .go "G" (by decide) fun _ =>
    Motion.direction?_iff
  have back := c.snapshot.retained_ne_nil_iff cy.id .back "B" (by decide) fun _ =>
    Motion.direction?_iff
  have slow := c.snapshot.timer_found_iff cy.owner .forcedDeceleration
  cases role with
  | retainGo =>
    refine ⟨fun uses out => out (go.mp (uses.heldGo rfl)), fun kept => ?_⟩
    exact ⟨mem, fun _ => go.mpr (Classical.not_not.mp kept), by simp, by simp⟩
  | retainBack =>
    refine ⟨fun uses out => out (back.mp (uses.heldBack rfl)), fun kept => ?_⟩
    exact ⟨mem, by simp, fun _ => back.mpr (Classical.not_not.mp kept), by simp⟩
  | decelerate =>
    refine ⟨fun uses out => out (slow.mp (uses.slowed rfl)), fun kept => ?_⟩
    exact ⟨mem, by simp, by simp, fun _ => slow.mpr (Classical.not_not.mp kept)⟩
  | _ => exact ⟨fun _ out => out, fun _ => Drive.uses_of_mem mem (by decide)⟩

/-- The roles of its template that a sequence at its end does not use are those left out. -/
theorem sequence_uses_iff {o : Operation} {t : OperationTemplate} {b : Block} {scope : String}
    {role : OperationRole} (mem : role ∈ t.roles)
    (timed : ∀ step ∈ t.steps, c.timer o.owner (.speedChange step) ≠ .missing) :
    (Sequencer.mk c o t b scope).Uses role ↔ ¬c.snapshot.LeavesOut o role := by
  have found := c.snapshot.timer_found_iff o.owner
  cases role with
  | deepSeat =>
    refine ⟨fun uses out => out ((found _).mp (uses.seated rfl)), fun kept => ?_⟩
    exact ⟨mem, fun _ => (found _).mpr (Classical.not_not.mp kept), by simp⟩
  | speedStep step =>
    have listed : step ∈ t.steps := by
      simpa [OperationTemplate.roles, OperationTemplate.commonRoles] using mem
    have present := timed step listed
    have cases := c.snapshot.timer_cases o.owner (.speedChange step)
    constructor
    · intro uses out
      have one := (found _).mp (uses.timed step rfl)
      simp only [Snapshot.LeavesOut] at out
      omega
    · intro kept
      simp only [Snapshot.LeavesOut] at kept
      refine ⟨mem, by simp, ?_⟩
      rintro other e
      cases e
      refine (found _).mpr ?_
      rcases cases with ⟨lookup, _⟩ | ⟨_, one⟩ | ⟨_, _, several⟩
      · exact absurd lookup present
      · exact one
      · omega
  | _ => exact ⟨fun _ out => out, fun _ => Sequencer.uses_of_mem _ mem (by simp) (by simp)⟩

end Context

/-! ## Every entity -/

/-- Rungs whose actions drive the roles in use cover a block, for devices that are not shared. -/
theorem Block.covered_of_drives {ρ : Type} [Role ρ] {b : Block} {roles used : List ρ}
    {coils : ρ → List Command} {leftOut : ρ → Prop} {shared : List String} {rungs : List Rung}
    (injective : ∀ p q : ρ, Role.offset p = Role.offset q → p = q) (once : used.Nodup)
    (uses : ∀ role ∈ roles, role ∈ used ↔ ¬leftOut role)
    (untimed : ∀ x ∉ shared, x ∉ timersOf (streamRows rungs))
    (drive : ∀ x ∉ shared, commandsOn x (Rungs.drives rungs) = commandsOn x (b.drives coils used)) :
    b.Covered roles coils leftOut shared (streamRows rungs) where
  driven role mem apart kept := by
    rw [Rung.drivers_streamRows (untimed _ apart), drive _ apart]
    exact commandsOn_drives_of_mem injective once ((uses role mem).mpr kept)
  undriven role mem apart out := by
    rw [Rung.drivers_streamRows (untimed _ apart), drive _ apart]
    exact commandsOn_drives_of_not_mem injective fun used => (uses role mem).mp used out

/-- What is on record for an entity is in order, and without anything critical its rows are
complete. -/
def Outcome.Accounts {σ : Type} (x : Outcome σ Unit) (owner : Owner)
    (complete : List Row → Prop) : Prop :=
  Reported owner (x.synthesis owner).diagnostics ∧
    (hasCritical (x.synthesis owner).diagnostics = false → complete (x.synthesis owner).rows)

theorem Outcome.accounts_of_ok {σ : Type} {x : Outcome σ Unit} {owner : Owner}
    {complete : List Row → Prop} (h : x.result = .ok () → complete (streamRows x.rungs)) :
    x.Accounts owner complete :=
  ⟨x.reported owner, fun accepted => h (Outcome.ok_of_not_critical accepted)⟩

namespace Context

variable {σ : Type} (c : Context σ)

/-- The rows drive the roles of the operation's class in its block. -/
def OperationComplete (o : Operation) (rows : List Row) : Prop :=
  ∃ t b, OperationTemplate.ofCode? o.categoryCode = some t ∧ c.Fits o.owner t.roles b ∧
    b.Covered t.roles OperationRole.coils (c.snapshot.LeavesOut o) (timersOf rows) rows

/-- The rows drive the roles of the cylinder's class in its block, where these are not addresses
that it has resolved. -/
def CylinderComplete (cy : Cylinder) (m : σ) (rows : List Row) : Prop :=
  ∃ k b w, DriveClass.ofCode? cy.driveCode = some k ∧ c.Fits cy.owner k.roles b ∧
    ((c.wiring cy).run m).result = .ok w ∧
    b.Covered k.roles CylinderRole.coils (c.snapshot.DriveLeavesOut cy) (w.all ++ timersOf rows)
      rows

def ProcessComplete (p : Process) (rows : List Row) : Prop :=
  ∃ t b, ProcessTemplate.ofCode? p.categoryCode = some t ∧ c.Fits p.owner t.roles b ∧
    b.Covered t.roles t.coils (fun _ => False) (timersOf rows) rows

def DetailComplete (d : Detail) (rows : List Row) : Prop :=
  ∃ b, c.Fits d.owner DetailRole.all b ∧
    b.Covered DetailRole.all DetailRole.coils (fun _ => False) (timersOf rows) rows

theorem accounts_operation (o : Operation) (m : σ) :
    ((c.operation o).run m).Accounts o.owner (c.OperationComplete o) := by
  refine Outcome.accounts_of_ok fun ok => ?_
  rcases c.operation_cases o m with ⟨_, f, halted⟩ | ⟨t, b, scope, known, fits, rungs, result⟩
  · rw [halted] at ok
    cases ok
  · rw [result] at ok
    rw [rungs]
    refine ⟨t, b, known, fits, Block.covered_of_drives (fun _ _ => OperationRole.offset_injective)
      (Sequencer.mk c o t b scope).driven_nodup (fun role mem => ?_) (fun _ h => h) fun x _ => ?_⟩
    · rw [Sequencer.mem_driven]
      exact c.sequence_uses_iff mem (Sequencer.timed_of_ok ok)
    · rw [Sequencer.drives_of_ok ok]
      rfl

theorem accounts_cylinder (cy : Cylinder) (m : σ) :
    ((c.cylinder cy).run m).Accounts cy.owner (c.CylinderComplete cy m) := by
  refine Outcome.accounts_of_ok fun ok => ?_
  rcases c.cylinder_cases cy m with ⟨_, f, halted⟩ | ⟨k, b, w, known, fits, wired, resolved, rungs⟩
  · rw [halted] at ok
    cases ok
  · obtain ⟨written, m', run, layout⟩ := Drive.layout_output resolved
    rw [rungs, run.rungs]
    refine ⟨k, b, w, known, fits, wired, Block.covered_of_drives
      (fun _ _ => CylinderRole.offset_injective) ((c.drive cy b).driven_nodup k)
      (fun role mem => ?_) (fun x apart timed => apart (List.mem_append_right _ timed))
      fun x apart => ?_⟩
    · rw [Drive.mem_driven]
      exact c.drive_uses_iff mem
    · exact layout.commandsOn fun address => apart (List.mem_append_left _ address)

theorem accounts_process (p : Process) (m : σ) :
    ((c.process p).run m).Accounts p.owner (c.ProcessComplete p) := by
  refine Outcome.accounts_of_ok fun ok => ?_
  rcases c.process_cases p m with ⟨_, f, halted⟩ | ⟨t, b, known, fits, _, drive⟩
  · rw [halted] at ok
    cases ok
  · have once : t.roles.Nodup := show ProcessRole.all.Nodup by decide
    refine ⟨t, b, known, fits, Block.covered_of_drives (fun _ _ => ProcessRole.offset_injective)
      once (fun role mem => ?_) (fun _ h => h) fun x _ => ?_⟩
    · exact ⟨fun _ out => out, fun _ => mem⟩
    · rw [drive]

theorem accounts_detail (d : Detail) (m : σ) :
    ((c.detail d).run m).Accounts d.owner (c.DetailComplete d) := by
  refine Outcome.accounts_of_ok fun ok => ?_
  rcases c.detail_cases d m with ⟨_, f, halted⟩ | ⟨b, fits, _, drive⟩
  · rw [halted] at ok
    cases ok
  · have once : DetailRole.all.Nodup := by decide
    refine ⟨b, fits, Block.covered_of_drives (fun _ _ => DetailRole.offset_injective)
      once (fun role mem => ?_) (fun _ h => h) fun x _ => ?_⟩
    · exact ⟨fun _ out => out, fun _ => mem⟩
    · rw [drive]

/-- Complete or critical: whatever the snapshot, the settings, the resolver and the conditions are,
an entity has at most one critical diagnostic, which is its last, and without one its rows drive
every role of its class, each by its own commands. Left out are only a deep seat, a speed step or a
deceleration for its timers, and the hold of a side with no retention. -/
theorem complete_or_critical (m : σ) :
    (∀ o : Operation, ((c.operation o).run m).Accounts o.owner (c.OperationComplete o)) ∧
      (∀ cy : Cylinder, ((c.cylinder cy).run m).Accounts cy.owner (c.CylinderComplete cy m)) ∧
      (∀ p : Process, ((c.process p).run m).Accounts p.owner (c.ProcessComplete p)) ∧
      ∀ d : Detail, ((c.detail d).run m).Accounts d.owner (c.DetailComplete d) :=
  ⟨fun o => c.accounts_operation o m, fun cy => c.accounts_cylinder cy m,
    fun p => c.accounts_process p m, fun d => c.accounts_detail d m⟩

end Context

/-- With a timer for each of its speed steps and for its seat, an operation leaves nothing out. -/
theorem complete_twoSpeeds :
    hasCritical (((Snapshot.TwoSpeeds.context.operation .twoSpeeds).run []).synthesis
        Operation.twoSpeeds.owner).diagnostics = false ∧
      ∀ role ∈ (OperationTemplate.speedChange 2).roles,
        drivers (Snapshot.TwoSpeeds.block.bit role) Snapshot.TwoSpeeds.rows = [role.coil] := by
  have accepted : hasCritical (((Snapshot.TwoSpeeds.context.operation .twoSpeeds).run []).synthesis
      Operation.twoSpeeds.owner).diagnostics = false := by decide +kernel
  refine ⟨accepted, fun role mem => ?_⟩
  obtain ⟨t, b, known, fits, covered⟩ :=
    ((Snapshot.TwoSpeeds.context.complete_or_critical []).1 .twoSpeeds).2 accepted
  have template : some (.speedChange 2) = some t := known
  have block : some Snapshot.TwoSpeeds.block = some b := fits.found
  cases template
  cases block
  refine covered.driven role mem (Snapshot.TwoSpeeds.apart role) ?_
  have seat : Snapshot.twoSpeeds.timerCount Operation.twoSpeeds.owner .deepSeat = 1 := by decide
  have steps : ∀ step ∈ (OperationTemplate.speedChange 2).steps,
      Snapshot.twoSpeeds.timerCount Operation.twoSpeeds.owner (.speedChange step) = 1 := by decide
  cases role with
  | deepSeat => exact fun out => out seat
  | speedStep step =>
    have listed : step ∈ (OperationTemplate.speedChange 2).steps := by
      simpa [OperationTemplate.roles, OperationTemplate.commonRoles] using mem
    intro (out : 2 ≤ Snapshot.twoSpeeds.timerCount Operation.twoSpeeds.owner (.speedChange step))
    rw [steps step listed] at out
    omega
  | _ => exact fun out => out

end Rungs
