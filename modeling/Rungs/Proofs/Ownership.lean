import Mathlib.Data.List.Nodup
import Rungs.Proofs.Conformance
import Rungs.Proofs.Cylinder.Drivers
import Rungs.Proofs.Operation.Drivers
import Rungs.Proofs.Process.Drivers
import Rungs.Proofs.Turns

/-! Single writers. Where ids are unique and allocations are apart, no bit of an allocation is driven
by two rows, and only the owner of the allocation drives it at all. One exception is made on purpose:
the running bit of a process that is reset afterwards has one row that sets it and one that resets
it. -/

namespace Rungs

/-! ## Keys -/

namespace Snapshot

variable {s : Snapshot}

private theorem nodup_keys {kind : EntityKind} {ids : List Int32} (once : ids.Nodup) :
    (ids.map (Prod.mk kind)).Nodup :=
  once.map fun _ _ same => (Prod.mk.inj same).2

private theorem disjoint_keys {kind : EntityKind} {ids : List Int32}
    {keys : List (EntityKind × Int32)} (other : ∀ key ∈ keys, key.1 ≠ kind) :
    (ids.map (Prod.mk kind)).Disjoint keys := by
  intro key mem there
  obtain ⟨id, _, rfl⟩ := List.mem_map.mp mem
  exact other _ there rfl

/-- Where ids are unique, no two entities have one kind and id. -/
theorem keys_nodup (distinct : s.Distinct) (details : (s.details.map (·.id)).Nodup) :
    (s.entities.map Entity.key).Nodup := by
  have operations : (s.sortedOperations.map (·.id)).Nodup :=
    ((inOrder_perm _ _).map _).nodup_iff.mpr distinct.operations
  have cylinders : (s.sortedCylinders.map (·.id)).Nodup :=
    ((inOrder_perm _ _).map _).nodup_iff.mpr distinct.cylinders
  have processes : (s.sortedProcesses.map (·.id)).Nodup :=
    ((inOrder_perm _ _).map _).nodup_iff.mpr distinct.processes
  have members : (s.sortedDetails.map (·.id)).Nodup :=
    ((sortedDetails_perm distinct.processes).map _).nodup_iff.mpr details
  have parts : s.entities.map Entity.key =
      (s.sortedOperations.map (·.id)).map (Prod.mk .operation) ++
        ((s.sortedCylinders.map (·.id)).map (Prod.mk .cylinder) ++
          ((s.sortedProcesses.map (·.id)).map (Prod.mk .process) ++
            (s.sortedDetails.map (·.id)).map (Prod.mk .detail))) := by
    simp only [entities, List.map_append, List.map_map]
    rfl
  rw [parts]
  refine (nodup_keys operations).append ?_ (disjoint_keys ?_)
  · refine (nodup_keys cylinders).append ?_ (disjoint_keys ?_)
    · refine (nodup_keys processes).append (nodup_keys members) (disjoint_keys ?_)
      simp
    · simp [or_imp, forall_and]
  · simp [or_imp, forall_and]

/-! ## Bits of allocations -/

/-- The device is a bit of an allocation. -/
def Occupied (s : Snapshot) (device : String) : Prop :=
  ∃ a ∈ s.allocations, ∃ offset, a.covers offset = true ∧ device = a.device offset

/-- The running bit of a process that is reset afterwards, at its place in the process' allocation. -/
def SetAndReset (s : Snapshot) (a : Allocation) (offset : Nat) : Prop :=
  ∃ p ∈ s.processes, ProcessTemplate.ofCode? p.categoryCode = some .resetAfter ∧
    a.kind = .process ∧ a.recordId = p.id ∧ offset = Role.offset ProcessRole.running

/-- Commands that may drive a bit of an allocation: one at most, or first set and then reset. -/
structure MayDrive (s : Snapshot) (a : Allocation) (offset : Nat) (commands : List Command) :
    Prop where
  single : ¬s.SetAndReset a offset → commands.length ≤ 1
  paired : s.SetAndReset a offset → commands = [] ∨ commands = [.set, .rst]

theorem mayDrive_nil {a : Allocation} {offset : Nat} : s.MayDrive a offset [] :=
  ⟨fun _ => Nat.zero_le 1, fun _ => .inl rfl⟩

/-- Bits of an allocation other than a process' are driven by one command at most. -/
theorem mayDrive_of_kind {a : Allocation} {offset : Nat} {commands : List Command}
    {kind : EntityKind} (same : a.kind = kind) (other : kind ≠ .process)
    (few : commands.length ≤ 1) : s.MayDrive a offset commands := by
  refine ⟨fun _ => few, ?_⟩
  rintro ⟨p, _, _, process, _⟩
  exact absurd (same.symm.trans process) other

/-- An addressable bit tells its allocation. -/
theorem allocation_of_device (separated : s.Separated) {a b : Allocation} (ha : a ∈ s.allocations)
    (hb : b ∈ s.allocations) {i j : Nat} (covered : a.covers i = true) (within : b.covers j = true)
    (addressable : b.start.toNat + j < UInt32.size) (same : a.device i = b.device j) : a = b := by
  by_contra differ
  -- Only the bit of `b` is known to be addressable; that of `a` is, as it has the same name.
  have split := Device.split?_numbered (separated.label b hb) (b.start.toNat + j)
  have other := Device.split?_numbered (separated.label a ha) (a.start.toNat + i)
  have devices : Device.numbered a.label (a.start.toNat + i) =
      Device.numbered b.label (b.start.toNat + j) := same
  rw [devices, split, if_pos addressable] at other
  split at other
  next fits =>
    obtain ⟨label, _⟩ := Prod.mk.inj (Option.some.inj other)
    rw [label] at devices
    have number := Device.numbered_injective devices
    simp only [Allocation.covers, decide_eq_true_eq] at covered within
    refine separated.apart.forall ha hb differ label.symm (a.start.toNat + i) ⟨⟨?_, ?_⟩, ?_, ?_⟩
    all_goals omega
  next => cases other

end Snapshot

/-! ## One entity -/

namespace Context

variable {σ : Type} {c : Context σ} {a : Allocation} {offset : Nat}

section Blocks

variable {ρ : Type} [Role ρ] {owner : Owner} {roles : List ρ} {b : Block}

/-- A block that drives a bit of an allocation is that allocation, and drives it for one role. -/
theorem Fits.commandsOn_device (fits : c.Fits owner roles b) (separated : c.snapshot.Separated)
    (injective : ∀ p q : ρ, Role.offset p = Role.offset q → p = q) {coils : ρ → List Command}
    {used : List ρ} (once : used.Nodup) (among : ∀ role ∈ used, role ∈ roles)
    (mem : a ∈ c.snapshot.allocations) (covered : a.covers offset = true) :
    commandsOn (a.device offset) (b.drives coils used) = [] ∨
      (a.kind = owner.kind ∧ a.recordId = owner.recordId) ∧ ∃ role ∈ used,
        offset = Role.offset role ∧
          commandsOn (a.device offset) (b.drives coils used) = coils role := by
  -- Whether the block has the device is a question of names, whoever owns the allocation.
  by_cases driven : ∃ role ∈ used, b.bit role = a.device offset
  · obtain ⟨role, listed, same⟩ := driven
    obtain ⟨within, addressable⟩ := fits.covers (among role listed)
    have own : a = b.allocation := Snapshot.allocation_of_device separated mem fits.mem.1 covered
      within addressable same.symm
    have place : offset = Role.offset role := by
      rw [own] at same
      exact (b.allocation.device_injective same).symm
    refine .inr ⟨own ▸ fits.mem.2, role, listed, place, ?_⟩
    rw [← same]
    exact commandsOn_drives_of_mem injective once listed
  · refine .inl (commandsOn_eq_nil fun d listed same => driven ?_)
    obtain ⟨role, inside, command⟩ := List.mem_flatMap.mp listed
    obtain ⟨_, _, rfl⟩ := List.mem_map.mp command
    exact ⟨role, inside, same⟩

end Blocks

/-- The commands of an entity for a bit: none, or those that may drive it, and then the allocation is
the entity's own. -/
def Respects (c : Context σ) (owner : Owner) (a : Allocation) (offset : Nat)
    (commands : List Command) : Prop :=
  commands = [] ∨
    (a.kind = owner.kind ∧ a.recordId = owner.recordId) ∧ c.snapshot.MayDrive a offset commands

section Entities

variable {initial m : σ} (separated : c.snapshot.Separated) (mem : a ∈ c.snapshot.allocations)
  (covered : a.covers offset = true)

include separated mem covered

/-- An operation drives a bit as its whole sequence would, or less. -/
theorem respects_operation {o : Operation}
    (untimed : a.device offset ∉ timersOf (streamRows ((c.operation o).run m).rungs)) :
    c.Respects o.owner a offset
      (drivers (a.device offset) (streamRows ((c.operation o).run m).rungs)) := by
  rw [Rung.drivers_streamRows untimed]
  rcases c.operation_cases o m with ⟨none, _⟩ | ⟨t, b, scope, known, fits, rungs, _⟩
  · rw [none]
    exact .inl rfl
  · have first := commandsOn_prefix (x := a.device offset)
      ((Sequencer.mk c o t b scope).drivesFirst_sequence m)
    have among : ∀ role ∈ (Sequencer.mk c o t b scope).driven, role ∈ t.roles :=
      fun role driven => (Sequencer.mem_driven.mp driven).mem
    rw [rungs]
    rcases fits.commandsOn_device separated (fun _ _ => OperationRole.offset_injective)
      (Sequencer.mk c o t b scope).driven_nodup among mem covered with
      none | ⟨owned, role, _, _, commands⟩
    · rw [Sequencer.drivenBits, none] at first
      exact .inl (List.prefix_nil.mp first)
    · rw [Sequencer.drivenBits, commands] at first
      exact .inr ⟨owned, Snapshot.mayDrive_of_kind owned.1 (by simp [Operation.owner]) first.length_le⟩

/-- A cylinder drives its block and outputs that were found for it. -/
theorem respects_cylinder {cy : Cylinder} (reached : c.Reached initial m)
    (outputs : ∀ r, r.isOutput = true → ¬c.resolver.Answers initial r (a.device offset))
    (untimed : a.device offset ∉ timersOf (streamRows ((c.cylinder cy).run m).rungs)) :
    c.Respects cy.owner a offset
      (drivers (a.device offset) (streamRows ((c.cylinder cy).run m).rungs)) := by
  rw [Rung.drivers_streamRows untimed]
  rcases c.cylinder_cases cy m with ⟨none, _⟩ | ⟨k, b, w, known, fits, _, wired, rungs⟩
  · rw [none]
    exact .inl rfl
  · obtain ⟨written, m', run, layout⟩ := Drive.layout_output wired
    have outside : a.device offset ∉ w.all := by
      intro address
      obtain ⟨point, answer⟩ := (Drive.emits_wiring k).answer reached wired _ address
      exact outputs _ rfl answer
    have among : ∀ role ∈ (c.drive cy b).driven k, role ∈ k.roles :=
      fun role driven => (Drive.mem_driven.mp driven).mem
    rw [rungs, run.rungs, layout.commandsOn outside]
    rcases fits.commandsOn_device separated (fun _ _ => CylinderRole.offset_injective)
      ((c.drive cy b).driven_nodup k) among mem covered with none | ⟨owned, role, _, _, commands⟩
    · exact .inl none
    · refine .inr ⟨owned, Snapshot.mayDrive_of_kind owned.1 (by simp [Cylinder.owner]) ?_⟩
      show (commandsOn _ (b.drives CylinderRole.coils _)).length ≤ 1
      rw [commands]
      exact Nat.le_refl 1

/-- A process sets and resets its running bit if it is one that is reset afterwards. -/
theorem respects_process (ids : (c.snapshot.processes.map (·.id)).Nodup) {p : Process}
    (listed : p ∈ c.snapshot.processes)
    (untimed : a.device offset ∉ timersOf (streamRows ((c.process p).run m).rungs)) :
    c.Respects p.owner a offset
      (drivers (a.device offset) (streamRows ((c.process p).run m).rungs)) := by
  rw [Rung.drivers_streamRows untimed]
  rcases c.process_cases p m with ⟨none, _⟩ | ⟨t, b, known, fits, _, drive⟩
  · rw [none]
    exact .inl rfl
  · have once : t.roles.Nodup := show ProcessRole.all.Nodup by decide
    rw [drive]
    rcases fits.commandsOn_device separated (fun _ _ => ProcessRole.offset_injective) once
      (fun _ inside => inside) mem covered with none | ⟨owned, role, _, place, commands⟩
    · exact .inl none
    · rw [commands]
      refine .inr ⟨owned, fun otherwise => ?_, ?_⟩
      · by_cases after : t = .resetAfter
        · have plain : role ≠ .running := by
            rintro rfl
            exact otherwise ⟨p, listed, after ▸ known, owned.1, owned.2, place⟩
          cases role with
          | running => exact absurd rfl plain
          | start | finished => exact Nat.le_refl 1
        · cases role with
          | running => exact Nat.le_of_eq (by simp [ProcessTemplate.coils, after])
          | start | finished => exact Nat.le_refl 1
      · -- The process that the bit is said to belong to is this one, as ids are unique.
        rintro ⟨q, member, template, _, id, running⟩
        have same : q = p := List.inj_on_of_nodup_map ids member listed (id.symm.trans owned.2)
        rw [same, known] at template
        have named : role = .running := ProcessRole.offset_injective (place.symm.trans running)
        rw [named, Option.some.inj template]
        exact .inr rfl

theorem respects_detail {d : Detail}
    (untimed : a.device offset ∉ timersOf (streamRows ((c.detail d).run m).rungs)) :
    c.Respects d.owner a offset
      (drivers (a.device offset) (streamRows ((c.detail d).run m).rungs)) := by
  rw [Rung.drivers_streamRows untimed]
  rcases c.detail_cases d m with ⟨none, _⟩ | ⟨b, fits, _, drive⟩
  · rw [none]
    exact .inl rfl
  · rw [drive]
    rcases fits.commandsOn_device separated (fun _ _ => DetailRole.offset_injective)
      (show DetailRole.all.Nodup by decide) (fun _ inside => inside) mem covered with
      none | ⟨owned, role, _, _, commands⟩
    · exact .inl none
    · refine .inr ⟨owned, Snapshot.mayDrive_of_kind owned.1 (by simp [Detail.owner]) ?_⟩
      rw [commands]
      exact Nat.le_refl 1

/-- Whichever entity has its turn, it respects the bits of allocations that are no output addresses
and no timers. -/
theorem respects_entity (ids : (c.snapshot.processes.map (·.id)).Nodup) {e : Entity}
    (listed : e ∈ c.snapshot.entities) (reached : c.Reached initial m)
    (outputs : ∀ r, r.isOutput = true → ¬c.resolver.Answers initial r (a.device offset))
    (untimed : a.device offset ∉ timersOf (streamRows ((c.entity e).run m).rungs)) :
    c.Respects e.owner a offset
      (drivers (a.device offset) (streamRows ((c.entity e).run m).rungs)) := by
  cases e with
  | operation o => exact respects_operation separated mem covered untimed
  | cylinder cy => exact respects_cylinder separated mem covered reached outputs untimed
  | process p =>
    have member : p ∈ c.snapshot.processes := by
      simpa [Snapshot.entities, Snapshot.mem_sortedProcesses] using listed
    exact respects_process separated mem covered ids member untimed
  | detail d => exact respects_detail separated mem covered untimed

end Entities

end Context

/-! ## The program -/

/-- Where keys are different and entries with other keys yield nothing, one entry yields all. -/
theorem flatMap_of_key {α κ β : Type} {key : α → κ} {f : α → List β} {l : List α}
    (once : (l.map key).Nodup) {x : α} (mem : x ∈ l) (others : ∀ y ∈ l, f y ≠ [] → key y = key x) :
    l.flatMap f = f x := by
  induction l with
  | nil => cases mem
  | cons y ys ih =>
    rw [List.map_cons, List.nodup_cons] at once
    rw [List.flatMap_cons]
    rcases List.mem_cons.mp mem with rfl | inside
    · have rest : ys.flatMap f = [] := by
        refine List.flatMap_eq_nil_iff.mpr fun z listed => ?_
        by_contra some
        exact once.1 (others z (List.mem_cons_of_mem x listed) some ▸ List.mem_map_of_mem listed)
      rw [rest, List.append_nil]
    · have first : f y = [] := by
        by_contra some
        exact once.1 (others y List.mem_cons_self some ▸ List.mem_map_of_mem inside)
      rw [first, List.nil_append]
      exact ih once.2 inside fun z listed => others z (List.mem_cons_of_mem y listed)

/-- Every bit of an allocation has one writer. -/
structure Snapshot.SingleWriter (s : Snapshot) (output : Output)
    (contributions : List (Entity × Synthesis)) : Prop where
  /-- The rows of the program are what the entities contribute, and every entity does so once. -/
  rows : output.program.rows = numberedFrom 0 (contributions.flatMap fun e => e.2.rows)
  entities : contributions.map Prod.fst = s.entities
  /-- At most one row drives a bit, unless one row is to set it and another to reset it. -/
  single : ∀ a ∈ s.allocations, ∀ offset, a.covers offset = true →
    s.MayDrive a offset (drivers (a.device offset) output.program.rows)
  /-- The rows that drive a bit are those of the entity that the allocation belongs to. -/
  owned : ∀ a ∈ s.allocations, ∀ offset, a.covers offset = true → ∀ e ∈ contributions,
    drivers (a.device offset) e.2.rows ≠ [] → e.1.key = (a.kind, a.recordId)
  /-- A process that is reset afterwards has its running bit set and reset, or it was stopped. -/
  reset : ∀ p ∈ s.processes, ProcessTemplate.ofCode? p.categoryCode = some .resetAfter →
    (∃ b, s.block? .process p.id = some b ∧
      drivers (b.bit ProcessRole.running) output.program.rows = [.set, .rst]) ∨
      ∃ d ∈ output.diagnostics, d.isCritical = true ∧ d.kind = .process ∧ d.recordId = p.id

namespace Service

variable {σ : Type} {v : Service σ} {s : Snapshot} {m : σ}

section Program

variable (distinct : s.Distinct) (details : (s.details.map (·.id)).Nodup)
  (separated : s.Separated)
  (outputs : ∀ r x, r.isOutput = true → v.resolver.Answers m r x → ¬s.Occupied x)
  (timers : ∀ x ∈ timersOf (v.generate s m).1.program.rows, ¬s.Occupied x)

include distinct separated outputs timers

theorem respects_turn {a : Allocation} (mem : a ∈ s.allocations) {offset : Nat}
    (covered : a.covers offset = true) {t : Entity × σ} (listed : t ∈ v.turns s m) :
    (v.context s).Respects t.1.owner a offset (drivers (a.device offset)
      (streamRows (((v.context s).entity t.1).run t.2).rungs)) := by
  have reached := invariant_of_turn ((v.context s).preserves_reached m) .start t listed
  refine Context.respects_entity separated mem covered distinct.processes (mem_of_turn listed)
    reached (fun r output answer => ?_) fun timed => ?_
  · exact outputs r _ output answer ⟨a, mem, offset, covered, rfl⟩
  · exact timers _ (mem_timersOf_generate listed timed) ⟨a, mem, offset, covered, rfl⟩

/-- Whoever drives a bit of an allocation has the key of the allocation. -/
theorem key_of_driver {a : Allocation} (mem : a ∈ s.allocations) {offset : Nat}
    (covered : a.covers offset = true) {t : Entity × σ} (listed : t ∈ v.turns s m)
    (some : drivers (a.device offset)
      (streamRows (((v.context s).entity t.1).run t.2).rungs) ≠ []) :
    t.1.key = (a.kind, a.recordId) := by
  rcases respects_turn distinct separated outputs timers mem covered listed with
    none | ⟨⟨kind, id⟩, _⟩
  · exact absurd none some
  · rw [Entity.key, kind, id]

include details

/-- What drives a bit of an allocation is what its owner contributes. -/
theorem drivers_of_owner {a : Allocation} (mem : a ∈ s.allocations) {offset : Nat}
    (covered : a.covers offset = true) {t : Entity × σ} (listed : t ∈ v.turns s m)
    (owner : t.1.key = (a.kind, a.recordId)) :
    drivers (a.device offset) (v.generate s m).1.program.rows = drivers (a.device offset)
      (streamRows (((v.context s).entity t.1).run t.2).rungs) := by
  have once : ((v.turns s m).map fun t => t.1.key).Nodup := by
    have keys := s.keys_nodup distinct details
    rw [← v.map_fst_turns s m, List.map_map] at keys
    exact keys
  rw [drivers_of_turn]
  refine flatMap_of_key once listed fun other inside some => ?_
  rw [owner]
  exact key_of_driver distinct separated outputs timers mem covered inside some

theorem mayDrive_generate {a : Allocation} (mem : a ∈ s.allocations) {offset : Nat}
    (covered : a.covers offset = true) :
    s.MayDrive a offset (drivers (a.device offset) (v.generate s m).1.program.rows) := by
  -- An allocation need not have an owner at all, and then nobody drives it.
  by_cases owner : ∃ t ∈ v.turns s m, t.1.key = (a.kind, a.recordId)
  · obtain ⟨t, listed, key⟩ := owner
    rw [drivers_of_owner distinct details separated outputs timers mem covered listed key]
    rcases respects_turn distinct separated outputs timers mem covered listed with
      none | ⟨_, may⟩
    · rw [none]
      exact Snapshot.mayDrive_nil
    · exact may
  · have none : drivers (a.device offset) (v.generate s m).1.program.rows = [] := by
      rw [drivers_of_turn, List.flatMap_eq_nil_iff]
      intro t listed
      by_contra some
      exact owner ⟨t, listed,
        key_of_driver distinct separated outputs timers mem covered listed some⟩
    rw [none]
    exact Snapshot.mayDrive_nil

/-- The running bit of a process that is reset afterwards is set and reset, in this order. -/
theorem reset_generate {p : Process} (mem : p ∈ s.processes)
    (after : ProcessTemplate.ofCode? p.categoryCode = some .resetAfter) :
    (∃ b, s.block? .process p.id = some b ∧
      drivers (b.bit ProcessRole.running) (v.generate s m).1.program.rows = [.set, .rst]) ∨
      ∃ d ∈ (v.generate s m).1.diagnostics,
        d.isCritical = true ∧ d.kind = .process ∧ d.recordId = p.id := by
  have entity : Entity.process p ∈ s.entities := by
    simpa [Snapshot.entities, Snapshot.mem_sortedProcesses] using mem
  obtain ⟨m', listed⟩ := exists_turn (v.context s).entity entity m
  rcases (v.context s).process_cases p m' with ⟨_, f, stopped⟩ | ⟨t, b, known, fits, _, drive⟩
  · exact .inr ⟨_, critical_of_turn listed stopped, rfl, rfl, rfl⟩
  · have running : ProcessRole.running ∈ t.roles := show _ ∈ ProcessRole.all by decide
    have once : t.roles.Nodup := show ProcessRole.all.Nodup by decide
    have owned : (Entity.process p).key = (b.allocation.kind, b.allocation.recordId) := by
      rw [fits.mem.2.1, fits.mem.2.2]
      rfl
    have covered := (fits.covers running).1
    have untimed : b.bit ProcessRole.running ∉
        timersOf (streamRows (((v.context s).process p).run m').rungs) := fun timed =>
      timers _ (mem_timersOf_generate listed timed) ⟨_, fits.mem.1, _, covered, rfl⟩
    have template : some t = some .resetAfter := known.symm.trans after
    refine .inl ⟨b, fits.found, ?_⟩
    have whole := drivers_of_owner distinct details separated outputs timers fits.mem.1 covered
      listed owned
    show drivers (b.allocation.device (Role.offset ProcessRole.running)) _ = _
    rw [whole]
    show drivers (b.bit ProcessRole.running) (streamRows (((v.context s).process p).run m').rungs) = _
    rw [Rung.drivers_streamRows untimed, drive, commandsOn_drives_of_mem
      (fun _ _ => ProcessRole.offset_injective) once running, Option.some.inj template]
    rfl

end Program

/-- Single writers. With unique ids and allocations that are apart, where no address of an output and
no timer is a bit of an allocation, every such bit is driven by one row at most, and that is a row of
the entity that owns the allocation, whether the program has critical diagnostics or not. Only the
running bit of a process that is reset afterwards has two: one sets it, and one resets it. -/
theorem single_writer (v : Service σ) (s : Snapshot) (m : σ) (distinct : s.Distinct)
    (details : (s.details.map (·.id)).Nodup) (separated : s.Separated)
    (outputs : ∀ r x, r.isOutput = true → v.resolver.Answers m r x → ¬s.Occupied x)
    (timers : ∀ x ∈ timersOf (v.generate s m).1.program.rows, ¬s.Occupied x) :
    s.SingleWriter (v.generate s m).1 (v.contributions s m) where
  rows := v.rows_generate s m
  entities := by
    rw [contributions, List.map_map]
    exact v.map_fst_turns s m
  single _ mem _ covered := mayDrive_generate distinct details separated outputs timers mem covered
  owned a mem offset covered e listed some := by
    obtain ⟨t, turn, rfl⟩ := List.mem_map.mp listed
    exact key_of_driver distinct separated outputs timers mem covered turn some
  reset _ mem after := reset_generate distinct details separated outputs timers mem after

end Service

/-- `oneStroke` as the step of a process that is reset afterwards. -/
def Snapshot.resetStroke : Snapshot :=
  { Snapshot.oneStroke with processes := [{ id := 1, categoryCode := 2 }] }

namespace Snapshot.ResetStroke

theorem distinct : resetStroke.Distinct := ⟨by decide, by decide, by decide⟩

theorem separated : resetStroke.Separated := ⟨OneStroke.separated.label, OneStroke.separated.apart⟩

/-- Only devices under the label `L` are bits of allocations. -/
theorem not_occupied {x : String} (other : x.toList.head? ≠ some 'L') : ¬resetStroke.Occupied x := by
  rintro ⟨a, mem, offset, _, rfl⟩
  refine other ?_
  rw [Allocation.device, Device.toList_numbered, OneStroke.labels a mem]
  rfl

theorem outputs (r : Request) (x : String) (_ : r.isOutput = true)
    (answer : OneStroke.service.resolver.Answers [] r x) : ¬resetStroke.Occupied x := by
  obtain ⟨p, mem, rfl⟩ := IoTable.wires_of_answers _ answer
  have others : ∀ p ∈ oneStroke.points, p.effectiveAddress.toList.head? ≠ some 'L' := by decide
  exact not_occupied (others p mem)

end Snapshot.ResetStroke

/-- The program of `resetStroke` sets and resets the process' running bit, and drives no bit of
another allocation twice. -/
theorem single_writer_resetStroke :
    drivers "L31" (Snapshot.resetStroke.generate {}).program.rows = [.set, .rst] ∧
      ∀ a ∈ Snapshot.resetStroke.allocations, a.kind ≠ .process → ∀ offset,
        a.covers offset = true →
          (drivers (a.device offset) (Snapshot.resetStroke.generate {}).program.rows).length ≤ 1 := by
  have timers : timersOf (Snapshot.resetStroke.generate {}).program.rows = [] := by decide +kernel
  have writer := Service.single_writer Snapshot.OneStroke.service Snapshot.resetStroke []
    Snapshot.ResetStroke.distinct (by decide) Snapshot.ResetStroke.separated
    Snapshot.ResetStroke.outputs fun x mem => by
      have none : x ∈ [] := timers ▸ mem
      cases none
  constructor
  · rcases writer.reset { id := 1, categoryCode := 2 } List.mem_cons_self rfl with
      ⟨b, found, commands⟩ | ⟨d, listed, critical, _⟩
    · have block : some (Block.mk ⟨.process, 1, "L", 30, 3⟩) = some b := found
      cases block
      exact commands
    · have accepted : hasCritical (Snapshot.resetStroke.generate {}).diagnostics = false := by
        decide +kernel
      exact absurd (List.any_eq_true.mpr ⟨d, listed, critical⟩) (Bool.eq_false_iff.mp accepted)
  · intro a mem other offset covered
    refine (writer.single a mem offset covered).single ?_
    rintro ⟨p, _, _, process, _⟩
    exact other process

end Rungs
