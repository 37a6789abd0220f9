import Rungs.Program
import Rungs.Proofs.Scan

/-! Which rows drive a device, and by what: outputs, pulses, set and reset. The drivers of a device
among the rows of some rungs can be read off the actions of the rungs, as long as the device is not
a timer that runs in them. -/

namespace Rungs

/-- These commands decide on the device that is their first operand. -/
def Command.isDriving : Command → Bool
  | .out | .set | .rst | .pls => true
  | _ => false

/-- The commands by which some rows drive a device, in the order of the rows. -/
def drivers (x : String) (rows : List Row) : List Command :=
  (rows.filter fun row => row.command.isDriving && row.operands.head? == some x).map (·.command)

/-- The device that an action drives as an output, and the command for it. A timer is not driven in
this sense. -/
def Action.drive? : Action → Option (String × Command)
  | .out device => some (device, .out)
  | .set device => some (device, .set)
  | .reset device => some (device, .rst)
  | .pulse device => some (device, .pls)
  | .delay _ _ | .move _ _ | .jump _ => none

/-- What some rungs drive, in the order of their actions. -/
def drives (rungs : List Rung) : List (String × Command) :=
  rungs.flatMap fun r => r.actions.filterMap Action.drive?

/-- The commands for one device. -/
def commandsOn (x : String) (ds : List (String × Command)) : List Command :=
  (ds.filter fun d => d.1 == x).map Prod.snd

/-- The bits of some roles with the commands for each of them. -/
def Block.drives {ρ : Type} [Role ρ] (b : Block) (coils : ρ → List Command) (roles : List ρ) :
    List (String × Command) :=
  roles.flatMap fun role => (coils role).map fun command => (b.bit role, command)

/-- What an action drives it decides on. -/
theorem Action.target?_of_drive? {a : Action} {d : String × Command} (h : a.drive? = some d) :
    a.target? = some d.1 := by
  cases a with
  | out x | set x | reset x | pulse x =>
    cases h
    rfl
  | delay timer preset | move value word | jump pointer => cases h

section Lists

variable {x : String} {a b : List (String × Command)}

theorem drivers_append (x : String) (a b : List Row) :
    drivers x (a ++ b) = drivers x a ++ drivers x b := by
  simp [drivers]

theorem drivers_flatMap {α : Type} (x : String) (f : α → List Row) (l : List α) :
    drivers x (l.flatMap f) = l.flatMap fun a => drivers x (f a) := by
  induction l with
  | nil => rfl
  | cons a l ih => rw [List.flatMap_cons, drivers_append, ih, List.flatMap_cons]

/-- A driver is a row of the list. -/
theorem mem_drivers {rows : List Row} {command : Command} :
    command ∈ drivers x rows ↔ ∃ row ∈ rows, row.command = command ∧
      command.isDriving = true ∧ row.operands.head? = some x := by
  simp only [drivers, List.mem_map, List.mem_filter, Bool.and_eq_true, beq_iff_eq]
  constructor
  · rintro ⟨row, ⟨mem, driving, operand⟩, rfl⟩
    exact ⟨row, mem, rfl, driving, operand⟩
  · rintro ⟨row, mem, rfl, driving, operand⟩
    exact ⟨row, ⟨mem, driving, operand⟩, rfl⟩

theorem drivers_numberedFrom (x : String) (n : UInt32) (rows : List Row) :
    drivers x (numberedFrom n rows) = drivers x rows := by
  induction rows generalizing n with
  | nil => rfl
  | cons row rest ih =>
    have first : drivers x [{ row with id := n }] = drivers x [row] := by
      simp only [drivers, List.filter_cons, List.filter_nil]
      split <;> rfl
    rw [numberedFrom, ← List.singleton_append, drivers_append, ih, first, ← drivers_append]
    rfl

theorem timersOf_numberedFrom (n : UInt32) (rows : List Row) :
    timersOf (numberedFrom n rows) = timersOf rows := by
  induction rows generalizing n with
  | nil => rfl
  | cons row rest ih =>
    have same : Row.timer? { row with id := n } = row.timer? := rfl
    simp only [timersOf, numberedFrom, List.filterMap_cons, same] at ih ⊢
    rw [ih]

@[simp] theorem drives_nil : drives [] = [] := rfl

@[simp] theorem drives_append (a b : List Rung) : drives (a ++ b) = drives a ++ drives b :=
  List.flatMap_append

@[simp] theorem drives_cons (r : Rung) (rungs : List Rung) :
    drives (r :: rungs) = r.actions.filterMap Action.drive? ++ drives rungs :=
  List.flatMap_cons ..

@[simp] theorem commandsOn_nil : commandsOn x [] = [] := rfl

@[simp] theorem commandsOn_append : commandsOn x (a ++ b) = commandsOn x a ++ commandsOn x b := by
  simp [commandsOn]

/-- Devices other than `x` do not count. -/
theorem commandsOn_eq_nil (h : ∀ d ∈ a, d.1 ≠ x) : commandsOn x a = [] := by
  simpa [commandsOn] using h

theorem mem_commandsOn {command : Command} : command ∈ commandsOn x a ↔ (x, command) ∈ a := by
  constructor
  · intro h
    obtain ⟨⟨y, driven⟩, mem, rfl⟩ := List.mem_map.mp h
    obtain ⟨mem, same⟩ := List.mem_filter.mp mem
    exact beq_iff_eq.mp same ▸ mem
  · intro h
    exact List.mem_map.mpr ⟨_, List.mem_filter.mpr ⟨h, beq_self_eq_true x⟩, rfl⟩

theorem commandsOn_prefix (h : a <+: b) : commandsOn x a <+: commandsOn x b := by
  obtain ⟨rest, rfl⟩ := h
  rw [commandsOn_append]
  exact List.prefix_append _ _

end Lists

/-! ## Drivers of rungs -/

namespace Rung

variable {x : String} {r : Rung} {rungs : List Rung}

private theorem drivers_contact (c : Contact) :
    drivers x [c.load] = [] ∧ drivers x [c.series] = [] ∧ drivers x [c.parallel] = [] := by
  rcases c with ⟨device, negated⟩
  cases negated <;> exact ⟨rfl, rfl, rfl⟩

private theorem drivers_seriesRows (cs : List Contact) : drivers x (seriesRows cs) = [] := by
  cases cs with
  | nil => rfl
  | cons c cs =>
    rw [seriesRows, ← List.singleton_append, drivers_append, (drivers_contact c).1,
      List.nil_append, List.map_eq_flatMap, drivers_flatMap]
    simp [(drivers_contact _).2.1]

private theorem drivers_links (ls : List Link) :
    drivers x (ls.map Link.row) = drivers x ((ls.filterMap Link.action?).map Action.row) := by
  induction ls with
  | nil => rfl
  | cons l ls ih =>
    rw [List.map_cons, ← List.singleton_append, drivers_append, ih]
    cases l with
    | series c =>
      rw [Link.row, (drivers_contact c).2.1]
      rfl
    | parallel c =>
      rw [Link.row, (drivers_contact c).2.2]
      rfl
    | act a =>
      rw [Link.row, ← drivers_append]
      rfl

/-- Only the actions of a rung drive anything. -/
theorem drivers_rows (x : String) (r : Rung) :
    drivers x r.rows = drivers x (r.actions.map Action.row) := by
  have heading : drivers x (r.heading.map Row.comment).toList = [] := by
    cases r.heading <;> rfl
  have others : drivers x (r.others.flatMap fun c =>
      seriesRows c.contacts ++ [.instruction .orb []]) = [] := by
    rw [drivers_flatMap, List.flatMap_eq_nil_iff]
    intro c _
    rw [drivers_append, drivers_seriesRows]
    rfl
  have entry : drivers x r.entryRows = [] := by
    rw [entryRows_eq, drivers_append, drivers_seriesRows, others]
    rfl
  have last : [r.last.row] = [r.last].map Action.row := rfl
  rw [rows, drivers_append, drivers_append, drivers_append, heading, entry, drivers_links,
    actions, List.map_append, drivers_append, last]
  rfl

theorem drivers_actions {as : List Action}
    (untimed : ∀ n p, .delay n p ∈ as → Device.timer n ≠ x) :
    drivers x (as.map Action.row) = commandsOn x (as.filterMap Action.drive?) := by
  induction as with
  | nil => rfl
  | cons a as ih =>
    have rest := ih fun n p mem => untimed n p (List.mem_cons_of_mem a mem)
    have first : drivers x [a.row] = commandsOn x a.drive?.toList := by
      cases a with
      | delay n p =>
        have other := untimed n p List.mem_cons_self
        simp [drivers, Action.row, Row.instruction, Action.drive?, other]
      | move value word => rfl
      | jump pointer => rfl
      | out y | set y | reset y | pulse y =>
        by_cases same : y = x <;>
          simp [drivers, commandsOn, Action.row, Row.instruction, Action.drive?,
            Command.isDriving, same]
    have parts : (a :: as).filterMap Action.drive? =
        a.drive?.toList ++ as.filterMap Action.drive? := by
      cases h : a.drive? <;> simp [h]
    rw [List.map_cons, ← List.singleton_append, drivers_append, first, rest, parts,
      commandsOn_append]

/-- A device that no timer of the rungs is, is driven as the actions of the rungs say. -/
theorem drivers_streamRows (untimed : x ∉ timersOf (streamRows rungs)) :
    drivers x (streamRows rungs) = commandsOn x (drives rungs) := by
  induction rungs with
  | nil => rfl
  | cons r rest ih =>
    have split : streamRows (r :: rest) = streamRows [r] ++ streamRows rest :=
      streamRows_append [r] rest
    rw [split, timersOf_append, List.mem_append, not_or] at untimed
    have here : drivers x (streamRows [r]) = commandsOn x (r.actions.filterMap Action.drive?) := by
      have single : streamRows [r] = r.rows := List.flatMap_singleton ..
      rw [single, drivers_rows]
      refine drivers_actions fun n p mem same => untimed.1 ?_
      exact same ▸ mem_timersOf List.mem_cons_self mem
    rw [split, drivers_append, here, ih untimed.2, drives_cons, commandsOn_append]

/-- What the actions of the rungs drive is driven by a row. -/
theorem mem_drivers_of_drives {command : Command} (h : (x, command) ∈ drives rungs) :
    command ∈ drivers x (streamRows rungs) := by
  obtain ⟨r, mem, inside⟩ := List.mem_flatMap.mp h
  obtain ⟨a, listed, drive⟩ := List.mem_filterMap.mp inside
  have row : a.row ∈ streamRows rungs := List.mem_flatMap.mpr ⟨r, mem, row_mem_rows listed⟩
  refine mem_drivers.mpr ⟨a.row, row, ?_⟩
  cases a with
  | out y | set y | reset y | pulse y =>
    cases drive
    exact ⟨rfl, rfl, rfl⟩
  | delay n p | move value word | jump pointer => cases drive

/-- What no action of the rungs drives and no timer of theirs is, they do not decide on. -/
theorem spared_of_commandsOn (undriven : commandsOn x (drives rungs) = [])
    (untimed : x ∉ timersOf (streamRows rungs)) : ∀ r ∈ rungs, x ∉ r.targets := by
  intro r mem target
  obtain ⟨a, listed, decides⟩ := mem_targets.mp target
  have driven (command : Command) : a.drive? ≠ some (x, command) := by
    intro drive
    have inside : (x, command) ∈ drives rungs :=
      List.mem_flatMap.mpr ⟨r, mem, List.mem_filterMap.mpr ⟨a, listed, drive⟩⟩
    have listed := mem_commandsOn.mpr inside
    rw [undriven] at listed
    cases listed
  cases a with
  | out y | set y | reset y | pulse y =>
    cases decides
    exact driven _ rfl
  | delay n p =>
    cases decides
    exact untimed (mem_timersOf mem listed)
  | move value word | jump pointer => cases decides

end Rung

/-! ## Drivers of a block -/

section Blocks

variable {ρ : Type} [Role ρ] {b : Block} {coils : ρ → List Command} {roles : List ρ} {role : ρ}

@[simp] theorem Block.drives_append (more : List ρ) :
    b.drives coils (roles ++ more) = b.drives coils roles ++ b.drives coils more :=
  List.flatMap_append

/-- Roles are told apart by their bits where they have different offsets. -/
theorem Block.bit_injective (injective : ∀ p q : ρ, Role.offset p = Role.offset q → p = q)
    {p q : ρ} (h : b.bit p = b.bit q) : p = q :=
  injective p q (b.allocation.device_injective h)

/-- The roles of a block drive nothing but their bits. -/
theorem commandsOn_drives_of_other {x : String} (other : ∀ role ∈ roles, x ≠ b.bit role) :
    commandsOn x (b.drives coils roles) = [] := by
  refine commandsOn_eq_nil fun driven mem same => ?_
  obtain ⟨role, listed, inside⟩ := List.mem_flatMap.mp mem
  obtain ⟨command, _, rfl⟩ := List.mem_map.mp inside
  exact other role listed same.symm

theorem commandsOn_drives_of_not_mem
    (injective : ∀ p q : ρ, Role.offset p = Role.offset q → p = q) (h : role ∉ roles) :
    commandsOn (b.bit role) (b.drives coils roles) = [] :=
  commandsOn_drives_of_other fun _ listed same =>
    h (Block.bit_injective injective same ▸ listed)

/-- A role that is listed once is driven by its own commands. -/
theorem commandsOn_drives_of_mem
    (injective : ∀ p q : ρ, Role.offset p = Role.offset q → p = q) (once : roles.Nodup)
    (h : role ∈ roles) : commandsOn (b.bit role) (b.drives coils roles) = coils role := by
  obtain ⟨before, after, rfl⟩ := List.append_of_mem h
  rw [List.nodup_append, List.nodup_cons] at once
  obtain ⟨_, ⟨later, _⟩, apart⟩ := once
  have earlier : role ∉ before := fun mem => apart role mem role List.mem_cons_self rfl
  have own : commandsOn (b.bit role) (b.drives coils [role]) = coils role := by
    simp [commandsOn, Block.drives, List.filter_map, Function.comp_def]
  rw [← List.singleton_append, Block.drives_append, Block.drives_append, commandsOn_append,
    commandsOn_append, own, commandsOn_drives_of_not_mem injective earlier,
    commandsOn_drives_of_not_mem injective later, List.nil_append, List.append_nil]

/-- Rungs that drive some roles of a block leave all other devices alone, timers apart. -/
theorem Rung.AllScan.frame_of_drives {rungs : List Rung} {d e : Devices} {x : String}
    (scan : AllScan rungs d e) (drive : drives rungs = b.drives coils roles)
    (untimed : x ∉ timersOf (streamRows rungs)) (other : ∀ role ∈ roles, x ≠ b.bit role) :
    e.bit x = d.bit x := by
  refine scan.frame (spared_of_commandsOn ?_ untimed)
  rw [drive]
  exact commandsOn_drives_of_other other

end Blocks

end Rungs
