import Rungs.Proofs.Conformance
import Rungs.Proofs.Coverage
import Rungs.Proofs.Turns

/-! No dangling contacts. Whatever bit of an allocation a contact of an accepted program reads, the
program turns it on somewhere: cylinders read operations, operations read details, details read
processes and operations, and each reads only roles that the other's class always has. Left open are
the bits of speed steps that an operation has skipped for having several timers. -/

namespace Rungs

/-- These commands read their operand as a contact. -/
def Command.isContact : Command → Bool
  | .ld | .ldi | .and | .ani | .or | .ori => true
  | _ => false

/-- Some row can turn the device on: an output, a set or a pulse. -/
def TurnedOn (x : String) (rows : List Row) : Prop :=
  ∃ row ∈ rows, row.command ∈ [Command.out, .set, .pls] ∧ row.operands.head? = some x

/-- The contact rows of a rung read the devices of its contacts. -/
theorem Rung.mem_contacts_of_row {r : Rung} {row : Row} {x : String} (h : row ∈ r.rows)
    (reads : row.command.isContact = true) (hx : x ∈ row.operands) :
    ∃ c ∈ r.contacts, c.device = x := by
  rcases Rung.row_cases h hx with found | ⟨a, _, rfl⟩
  · exact found
  · cases a <;> cases reads

theorem turnedOn_of_mem_drivers {x : String} {rows : List Row} (command : Command)
    (h : command ∈ drivers x rows) (on : command ∈ [Command.out, .set, .pls]) :
    TurnedOn x rows := by
  obtain ⟨row, mem, rfl, _, operand⟩ := mem_drivers.mp h
  exact ⟨row, mem, on, operand⟩

theorem Block.mem_drives {ρ : Type} [Role ρ] {b : Block} {coils : ρ → List Command}
    {roles : List ρ} {role : ρ} {command : Command} (mem : role ∈ roles)
    (h : command ∈ coils role) : (b.bit role, command) ∈ b.drives coils roles :=
  List.mem_flatMap.mpr ⟨role, mem, List.mem_map_of_mem h⟩

/-! ## What an accepted program turns on -/

/-- The bit of a speed step that an operation has skipped, as it has several timers for it. -/
def Snapshot.SkippedStep (s : Snapshot) (device : String) : Prop :=
  ∃ o ∈ s.operations, ∃ t b step, OperationTemplate.ofCode? o.categoryCode = some t ∧
    s.block? .operation o.id = some b ∧ step ∈ t.steps ∧
    device = b.bit (OperationRole.speedStep step) ∧ 2 ≤ s.timerCount o.owner (.speedChange step)

namespace Service

variable {σ : Type} {v : Service σ} {s : Snapshot} {m : σ}

theorem turnedOn_of_turn {t : Entity × σ} (listed : t ∈ v.turns s m) {x : String}
    (command : Command)
    (drive : (x, command) ∈ drives (((v.context s).entity t.1).run t.2).rungs)
    (on : command ∈ [Command.out, .set, .pls]) : TurnedOn x (v.generate s m).1.program.rows := by
  refine turnedOn_of_mem_drivers command ?_ on
  rw [drivers_of_turn]
  exact List.mem_flatMap.mpr ⟨t, listed, Rung.mem_drivers_of_drives drive⟩

section Accepted

variable (accepted : hasCritical (v.generate s m).1.diagnostics = false)

include accepted

/-- Every entity has a turn, and comes to its end in it. -/
theorem exists_ok_turn {e : Entity} (mem : e ∈ s.entities) :
    ∃ m', (e, m') ∈ v.turns s m ∧ (((v.context s).entity e).run m').result = .ok () := by
  obtain ⟨m', listed⟩ := exists_turn (v.context s).entity mem m
  exact ⟨m', listed, ok_of_turn accepted _ listed⟩

/-- The roles that an operation uses are turned on, and no speed step is without a timer. -/
theorem turnedOn_operation {o : Operation} {t : OperationTemplate} {b : Block}
    (mem : o ∈ s.operations) (known : OperationTemplate.ofCode? o.categoryCode = some t)
    (found : s.block? .operation o.id = some b) :
    (∀ scope role, (Sequencer.mk (v.context s) o t b scope).Uses role →
        TurnedOn (b.bit role) (v.generate s m).1.program.rows) ∧
      ∀ step ∈ t.steps, (v.context s).timer o.owner (.speedChange step) ≠ .missing := by
  have entity : Entity.operation o ∈ s.entities := by
    simpa [Snapshot.entities, Snapshot.mem_sortedOperations] using mem
  obtain ⟨m', listed, ok⟩ := exists_ok_turn accepted entity
  rcases (v.context s).operation_cases o m' with
    ⟨_, f, stopped⟩ | ⟨t', b', scope', known', fits, rungs, result⟩
  · cases stopped.symm.trans ok
  · cases known.symm.trans known'
    cases found.symm.trans fits.found
    have completed := result.symm.trans ok
    refine ⟨fun scope role uses => ?_, Sequencer.timed_of_ok completed⟩
    have on : role.coil ∈ [Command.out, .set, .pls] := by
      cases role <;> simp [OperationRole.coil]
    refine turnedOn_of_turn listed role.coil ?_ on
    show _ ∈ drives (((v.context s).operation o).run m').rungs
    rw [rungs, Sequencer.drives_of_ok completed]
    -- The scope of the turn is another one, but no role depends on it.
    have used : (Sequencer.mk (v.context s) o t b scope').Uses role :=
      ⟨uses.mem, uses.seated, uses.timed⟩
    exact Block.mem_drives (Sequencer.mem_driven.mpr used) (List.mem_singleton_self _)

/-- A speed step is turned on, or its operation has several timers for it. -/
theorem turnedOn_step {o : Operation} {t : OperationTemplate} {b : Block} {step : Step}
    (mem : o ∈ s.operations) (known : OperationTemplate.ofCode? o.categoryCode = some t)
    (found : s.block? .operation o.id = some b) (listed : step ∈ t.steps) :
    TurnedOn (b.bit (OperationRole.speedStep step)) (v.generate s m).1.program.rows ∨
      2 ≤ s.timerCount o.owner (.speedChange step) := by
  obtain ⟨used, timed⟩ := turnedOn_operation accepted mem known found
  rcases s.timer_cases o.owner (.speedChange step) with
    ⟨lookup, _⟩ | ⟨⟨t, lookup⟩, _⟩ | ⟨_, _, several⟩
  · exact absurd lookup (timed step listed)
  · exact .inl (used "" _ (Sequencer.uses_speedStep _ listed lookup))
  · exact .inr several

theorem turnedOn_cylinder {cy : Cylinder} {k : DriveClass} {b : Block} {role : CylinderRole}
    (mem : cy ∈ s.cylinders) (known : DriveClass.ofCode? cy.driveCode = some k)
    (found : s.block? .cylinder cy.id = some b)
    (uses : ((v.context s).drive cy b).Uses k role) :
    TurnedOn (b.bit role) (v.generate s m).1.program.rows := by
  have entity : Entity.cylinder cy ∈ s.entities := by
    simpa [Snapshot.entities, Snapshot.mem_sortedCylinders] using mem
  obtain ⟨m', listed, ok⟩ := exists_ok_turn accepted entity
  rcases (v.context s).cylinder_cases cy m' with
    ⟨_, f, stopped⟩ | ⟨k', b', w, known', fits, _, wired, rungs⟩
  · cases stopped.symm.trans ok
  · cases known.symm.trans known'
    cases found.symm.trans fits.found
    obtain ⟨written, m'', run, layout⟩ := Drive.layout_output wired
    refine turnedOn_of_turn listed .out ?_ (by decide)
    show _ ∈ drives (((v.context s).cylinder cy).run m').rungs
    rw [rungs, run.rungs]
    exact layout.drivenBits_subset
      (Block.mem_drives (Drive.mem_driven.mpr uses) (List.mem_singleton_self _))

theorem turnedOn_process {p : Process} {b : Block} (mem : p ∈ s.processes)
    (found : s.block? .process p.id = some b) (role : ProcessRole) :
    TurnedOn (b.bit role) (v.generate s m).1.program.rows := by
  have entity : Entity.process p ∈ s.entities := by
    simpa [Snapshot.entities, Snapshot.mem_sortedProcesses] using mem
  obtain ⟨m', listed, ok⟩ := exists_ok_turn accepted entity
  rcases (v.context s).process_cases p m' with ⟨_, f, stopped⟩ | ⟨t, b', known, fits, _, drive⟩
  · cases stopped.symm.trans ok
  · cases found.symm.trans fits.found
    have coil : ∃ command ∈ t.coils role, command ∈ [Command.out, .set, .pls] := by
      cases role with
      | running =>
        by_cases after : t = .resetAfter
        · exact ⟨.set, by simp [ProcessTemplate.coils, after], by decide⟩
        · exact ⟨.out, by simp [ProcessTemplate.coils, after], by decide⟩
      | start | finished => exact ⟨.out, List.mem_singleton_self _, by decide⟩
    obtain ⟨command, given, on⟩ := coil
    have all : role ∈ t.roles := show role ∈ ProcessRole.all by cases role <;> decide
    refine turnedOn_of_turn listed command ?_ on
    show _ ∈ drives (((v.context s).process p).run m').rungs
    rw [drive]
    exact Block.mem_drives all given

theorem turnedOn_detail {d : Detail} {b : Block} (mem : d ∈ s.details)
    (found : s.block? .detail d.id = some b) (role : DetailRole) :
    TurnedOn (b.bit role) (v.generate s m).1.program.rows := by
  have entity : Entity.detail d ∈ s.entities := by
    simpa [Snapshot.entities, Snapshot.mem_sortedDetails] using mem
  obtain ⟨m', listed, ok⟩ := exists_ok_turn accepted entity
  rcases (v.context s).detail_cases d m' with ⟨_, f, stopped⟩ | ⟨b', fits, _, drive⟩
  · cases stopped.symm.trans ok
  · cases found.symm.trans fits.found
    have all : role ∈ DetailRole.all := by cases role <;> decide
    refine turnedOn_of_turn listed .out ?_ (by decide)
    show _ ∈ drives (((v.context s).detail d).run m').rungs
    rw [drive]
    exact Block.mem_drives all (List.mem_singleton_self _)

/-- Whatever bit a contact may read, it is turned on, or it is that of a skipped speed step. -/
theorem turnedOn_of_legible {x : String} (h : (v.context s).Legible x) :
    TurnedOn x (v.generate s m).1.program.rows ∨ s.SkippedStep x := by
  cases h with
  | operation mem known found uses =>
    exact .inl ((turnedOn_operation accepted mem known found).1 _ _ uses)
  | step mem known found listed =>
    exact (turnedOn_step accepted mem known found listed).imp_right fun several =>
      ⟨_, mem, _, _, _, known, found, listed, rfl, several⟩
  | cylinder mem known found uses => exact .inl (turnedOn_cylinder accepted mem known found uses)
  | process mem found role => exact .inl (turnedOn_process accepted mem found role)
  | detail mem found role => exact .inl (turnedOn_detail accepted mem found role)

end Accepted

/-- No dangling contacts. In a program without a critical diagnostic, where no foreign operand lies in
an allocation, each contact on a bit of an allocation has a row that turns the bit on. The only
exception is the bit of a speed step for which its operation has several timers. -/
theorem contacts_turnedOn (v : Service σ) (s : Snapshot) (m : σ)
    (foreign : ∀ row ∈ (v.generate s m).1.program.rows, ∀ x ∈ row.operands,
      (v.context s).Foreign m x → ¬s.Allocated x)
    (accepted : hasCritical (v.generate s m).1.diagnostics = false) :
    ∀ row ∈ (v.generate s m).1.program.rows, row.command.isContact = true →
      ∀ x ∈ row.operands, s.Allocated x →
        TurnedOn x (v.generate s m).1.program.rows ∨ s.SkippedStep x := by
  intro row mem reads x operand allocated
  obtain ⟨r, origin, plain, inside, operands, command⟩ :=
    origin_of_mem_rows ((v.context s).preserves_reached m) .start mem
  obtain ⟨contact, listed, device⟩ := Rung.mem_contacts_of_row inside
    (command ▸ reads) (operands ▸ operand)
  rcases Context.legible_of_origin origin listed with outside | legible
  · exact absurd allocated (foreign row mem x operand (device ▸ outside))
  · exact turnedOn_of_legible accepted (device ▸ legible)

end Service

/-- Without timers there are no skipped steps: all contacts of `oneStroke` on bits of allocations have
rows that turn these on, among them the cylinder's contact on the operation's `L5`. -/
theorem contacts_turnedOn_oneStroke :
    TurnedOn "L5" (Snapshot.oneStroke.generate {}).program.rows ∧
      ∀ row ∈ (Snapshot.oneStroke.generate {}).program.rows, row.command.isContact = true →
        ∀ x ∈ row.operands, Snapshot.oneStroke.Allocated x →
          TurnedOn x (Snapshot.oneStroke.generate {}).program.rows := by
  have all : ∀ row ∈ (Snapshot.oneStroke.generate {}).program.rows, row.command.isContact = true →
      ∀ x ∈ row.operands, Snapshot.oneStroke.Allocated x →
        TurnedOn x (Snapshot.oneStroke.generate {}).program.rows := by
    intro row mem reads x operand allocated
    rcases Service.contacts_turnedOn Snapshot.OneStroke.service Snapshot.oneStroke []
      (fun _ _ _ _ => Snapshot.OneStroke.foreign) (by decide +kernel) row mem reads x operand
      allocated with on | ⟨_, _, _, _, _, _, _, _, _, several⟩
    · exact on
    · exact absurd several (by simp [Snapshot.timerCount, Snapshot.oneStroke])
  refine ⟨?_, all⟩
  have read : ∃ row ∈ (Snapshot.oneStroke.generate {}).program.rows,
      row.command.isContact = true ∧ "L5" ∈ row.operands := by decide +kernel
  obtain ⟨row, mem, reads, operand⟩ := read
  refine all row mem reads "L5" operand ⟨"L", 5, by decide, ?_⟩
  exact ⟨⟨.operation, 1, "L", 0, 20⟩, List.mem_cons_self, rfl, by decide, by decide⟩

end Rungs
