import Rungs.Proofs.Cylinder.Vocabulary
import Rungs.Proofs.Independence
import Rungs.Proofs.Operation.Sensing

/-! Points keep to their scope and direction. Whatever was asked before and whatever the selector
picks, a cylinder drives no device but bits of its own, its own deceleration timers and output points
of its scope, and an operation takes no contact from a sensor but a timer that it names, the signal
that is always off and input points of its cylinder's scope. A shared point comes in only where the
scope has no point of that name and direction. -/

namespace Rungs

open Emission

/-- The scope that an operation's sensors belong to: the number of its cylinder, if it has one. -/
def Snapshot.sensorScope (s : Snapshot) (o : Operation) : String :=
  match s.cylinder? o.cylinderId with
  | some cylinder => cylinder.number
  | none => ""

namespace Context

variable (t : IoTable) (c : Context (List Choice))

/-- The devices that an output in a cylinder's rows may drive. -/
inductive Drivable (cy : Cylinder) : String → Prop
  | own {k : DriveClass} {b : Block} {role : CylinderRole}
      (known : DriveClass.ofCode? cy.driveCode = some k) (fits : c.Fits cy.owner k.roles b)
      (mem : role ∈ k.roles) : Drivable cy (b.bit role)
  | timer {timer : Timer} (mem : timer ∈ c.snapshot.timers)
      (category : timer.categoryId = TimerCategory.forcedDeceleration.id)
      (owned : timer.ownedBy .cylinder cy.id = true) : Drivable cy (Device.timer timer.number)
  | output {name address : String}
      (supplied : t.Supplies ⟨name, true, cy.number, cy.id⟩ address) : Drivable cy address

/-- The contacts that a sensor of an operation may stand for. Its points bear its name, or its name
and a number. -/
inductive Sensed (o : Operation) (sensor : String) : Contact → Prop
  | timer (reference : Device.isTimerReference (sensorBase sensor) = true) :
      Sensed o sensor ⟨sensorBase sensor, isInvertedSensor sensor⟩
  | off : Sensed o sensor c.alwaysOff
  | input {name address : String}
      (named : name = sensorBase sensor ∨ ∃ i, name = Device.numbered (sensorBase sensor) i)
      (supplied : t.Supplies ⟨name, false, c.snapshot.sensorScope o, o.id⟩ address) :
      Sensed o sensor ⟨address, isInvertedSensor sensor⟩

variable {t c} {P : Rung → Prop}

theorem drivable_of_cylinderRung (table : c.resolver = t.resolver) {cy : Cylinder} {r : Rung}
    (proper : c.CylinderRung [] cy r) {row : Row} (mem : row ∈ r.rows)
    (output : row.command = .out) :
    ∃ device presets, row.operands = device :: presets ∧ c.Drivable t cy device := by
  obtain ⟨k, b, known, fits, within⟩ := proper
  have active : row.command.isCondition = false := by rw [output]; rfl
  obtain ⟨a, inside, rfl⟩ := Rung.exists_action_of_row mem active
  cases within.acts a inside with
  | out uses => exact ⟨_, [], rfl, .own known fits uses.mem⟩
  | output connects =>
    obtain ⟨point, answers⟩ := connects
    have supplied := t.supplies_of_answers (table ▸ answers)
    exact ⟨_, [], rfl, .output supplied⟩
  | delay found =>
    obtain ⟨listed, category, owned⟩ := Snapshot.owned_of_timer found
    exact ⟨_, _, rfl, .timer listed category owned⟩
  | move moves =>
    cases moves
    contradiction

theorem emits_sensed (table : c.resolver = t.resolver) (o : Operation) (name : String)
    (count : Option UInt32) :
    Emits (c.Reached []) P (c.sensors o.owner name count (c.snapshot.sensorScope o)) fun contacts =>
      ∀ x ∈ contacts, c.Sensed t o name x := by
  unfold sensors
  refine Emits.ite (fun reference => Emits.pure fun x mem => ?_) fun _ => ?_
  · rw [List.mem_singleton.mp mem]
    exact .timer reference
  · refine ((c.emits_resolvePoints _ count).and (c.emits_pointNames _ count)).bind
      fun points ⟨known, named⟩ => ?_
    refine (Emits.mapM (R := fun _ x => c.Sensed t o name x) fun point mem => ?_).imp
      fun contacts all x mem => ?_
    · unfold pointContact
      split
      next address eq =>
        have supplied := t.supplies_of_answers (table ▸ known point mem address eq)
        exact Emits.pure (.input (named point mem) supplied)
      next => exact (Emits.warn (Q := fun _ => True) trivial).bind fun _ _ => Emits.pure .off
    · obtain ⟨_, _, sensed⟩ := all x mem
      exact sensed

/-- A rung of an operation, with its class and its block: what it takes from sensors is sensed. -/
def SensedRung (t : IoTable) (c : Context (List Choice)) (o : Operation) (r : Rung) : Prop :=
  ∃ template b, OperationTemplate.ofCode? o.categoryCode = some template ∧
    c.Fits o.owner template.roles b ∧
    (Sequencer.mk c o template b (c.snapshot.sensorScope o)).Formed
      (fun name contacts => ∀ x ∈ contacts, c.Sensed t o name x) r

theorem emits_scope (o : Operation) {I : List Choice → Prop} :
    Emits I P (c.operationScope o) fun scope => scope = c.snapshot.sensorScope o := by
  unfold operationScope Snapshot.sensorScope
  cases c.snapshot.cylinder? o.cylinderId with
  | some cylinder => exact Emits.pure rfl
  | none => exact (Emits.warn (Q := fun _ => True) trivial).bind fun _ _ => Emits.pure rfl

theorem emits_sensedRungs (table : c.resolver = t.resolver) (o : Operation) :
    Emits (c.Reached []) (c.SensedRung t o) (c.operation o) fun _ => True := by
  unfold operation
  split
  next => exact Emits.halt
  next template known =>
    refine (c.emits_block o.owner template.roles).bind fun b fits => ?_
    refine (emits_scope o).bind fun scope eq => ?_
    subst eq
    refine (Sequencer.emits_formed (s := ⟨c, o, template, b, c.snapshot.sensorScope o⟩)
      fun name count => emits_sensed table o name count).weaken (fun r formed => ?_) fun _ h => h
    exact ⟨template, b, known, fits, formed⟩

end Context

/-- Points keep to their scope and direction, in the rows of every cylinder and in the rungs of every
operation, from every memory that a table of points can have. -/
theorem points_isolated (t : IoTable) (settings : Settings)
    (conditionIds : ConditionKind → EntityKind → Int32 → List Int32) (s : Snapshot)
    (m : List Choice) (reached : t.resolver.Reachable [] m) :
    let c := (Service.ofTable t settings conditionIds).context s
    (∀ cy, ∀ row ∈ streamRows ((c.cylinder cy).run m).rungs, row.command = .out →
      ∃ device presets, row.operands = device :: presets ∧ c.Drivable t cy device) ∧
    ∀ o, ∀ r ∈ ((c.operation o).run m).rungs, c.SensedRung t o r := by
  intro c
  have here : c.Reached [] m := reached
  constructor
  · intro cy row mem output
    obtain ⟨r, listed, inside⟩ := List.mem_flatMap.mp mem
    exact Context.drivable_of_cylinderRung rfl (c.emits_cylinder.rung here listed) inside output
  · intro o r mem
    exact (Context.emits_sensedRungs rfl o).rung here mem

/-- The start sensor of `oneStroke` was asked for before, and the second of its two points chosen. -/
theorem points_isolated_twinPoints :
    let t : IoTable := { points := IoTable.twinPoints, selector := .last }
    let c := (Service.ofTable t {} (conditionIds [])).context Snapshot.oneStroke
    let m := (t.resolver.resolve ⟨"XS", false, "CY1", 1⟩ []).2
    m.map (·.address) = [some "X8"] ∧
      (∀ cy ∈ Snapshot.oneStroke.cylinders,
        .instruction .out ["Y0"] ∈ streamRows ((c.cylinder cy).run m).rungs ∧
          c.Drivable t cy "Y0") ∧
      ∀ o ∈ Snapshot.oneStroke.operations, ∀ r ∈ ((c.operation o).run m).rungs,
        c.SensedRung t o r := by
  intro t c m
  have reached : t.resolver.Reachable [] m := .resolve _ .start
  obtain ⟨outputs, sensors⟩ :=
    points_isolated t {} (conditionIds []) Snapshot.oneStroke m reached
  refine ⟨by decide +kernel, fun cy mem => ?_, fun o _ => sensors o⟩
  rw [Snapshot.oneStroke, List.mem_singleton] at mem
  subst mem
  have driven : Row.instruction .out ["Y0"] ∈ streamRows ((c.cylinder
      { id := 1, number := "CY1", driveCode := 2 }).run m).rungs := by decide +kernel
  obtain ⟨device, presets, operands, drivable⟩ := outputs _ _ driven rfl
  obtain ⟨rfl, -⟩ := List.cons.inj operands
  exact ⟨driven, drivable⟩

end Rungs
