import Rungs.Conformance
import Rungs.Proofs.Cylinder.Vocabulary
import Rungs.Proofs.Operation.Vocabulary
import Rungs.Proofs.Process.Vocabulary

/-! Where the operands of a program come from. An operand is either foreign, as it comes from the
settings, the resolver, a timer or another table of the snapshot, or the bit of a role
(`Context.known_of_origin`); what a contact reads is foreign, or the bit of a role in use
(`Context.legible_of_origin`). -/

namespace Rungs

/-- The devices that every project shares, without the label of pointers. -/
def Settings.signals (s : Settings) : List String :=
  [s.alwaysOn, s.alwaysOff, s.pauseSignal, s.resetSignal, s.autoModeSignal, s.testModeSignal,
    s.debugStartSignal]

namespace Allocation

/-- The number lies in the block. -/
def Holds (a : Allocation) (number : Nat) : Prop :=
  a.start.toNat ≤ number ∧ number < a.start.toNat + a.count.toNat

/-- Blocks of one label have no number in common. -/
def Apart (a b : Allocation) : Prop :=
  a.label = b.label → ∀ number, ¬(a.Holds number ∧ b.Holds number)

instance : Std.Symm Apart := ⟨fun _ _ h label number both => h label.symm number both.symm⟩

end Allocation

namespace Snapshot

variable (s : Snapshot)

/-- A number that a program may hold as a constant. -/
inductive Quotes : Int → Prop
  | zero : Quotes 0
  | preset {t : Timer} (mem : t ∈ s.timers) : Quotes t.preset.toNat
  | value {o : Operation} {value : Int} (mem : o ∈ s.operations) (h : value ∈ o.values) :
      Quotes value

/-- The device lies in an allocation. -/
def Allocated (device : String) : Prop :=
  ∃ label number, Device.split? device = some (label, number) ∧
    ∃ a ∈ s.allocations, a.label = label ∧ a.Holds number.toNat

/-- The device is the bit of an allocation for a role that the class of its owner has, and it can
be addressed. -/
def RoleBit (device : String) : Prop :=
  ∃ a ∈ s.allocations, ∃ offset ∈ s.allowedOffsets a, a.covers offset = true ∧
    a.start.toNat + offset < UInt32.size ∧ device = a.device offset

/-- Ids are unique among operations, among cylinders and among processes. Details may share ids. -/
structure Distinct : Prop where
  operations : (s.operations.map (·.id)).Nodup
  cylinders : (s.cylinders.map (·.id)).Nodup
  processes : (s.processes.map (·.id)).Nodup

/-- Every allocation can be recognised by its label and is apart from all others. -/
structure Separated : Prop where
  label : ∀ a ∈ s.allocations, Device.IsLabel a.label
  apart : s.allocations.Pairwise Allocation.Apart

end Snapshot

/-- A device, word, pointer or constant that does not come from an allocation. Addresses count as
far as the resolver gives them out when it starts from the memory `initial`. -/
inductive Context.Foreign {σ : Type} (c : Context σ) (initial : σ) : String → Prop
  | signal {x : String} (h : x ∈ c.settings.signals) : Foreign c initial x
  | pointer {p : Process} {number : UInt32} (mem : p ∈ c.snapshot.processes)
      (h : p.blockNumber = some number) : Foreign c initial (c.settings.jumpPointer number)
  | manual {m : ManualControl} {x : String} (mem : m ∈ c.snapshot.manualControls)
      (h : x ∈ [m.signals.go, m.signals.back, m.signals.enable]) : Foreign c initial x
  | address {r : Request} {x : String} (h : c.resolver.Answers initial r x) : Foreign c initial x
  | timer {t : Timer} (mem : t ∈ c.snapshot.timers) : Foreign c initial (Device.timer t.number)
  | reference {o : Operation} {name : String} (mem : o ∈ c.snapshot.operations)
      (named : name ∈ o.sensorNames)
      (h : Device.isTimerReference (Context.sensorBase name) = true) :
      Foreign c initial (Context.sensorBase name)
  | speed {d : SpeedDevice} (mem : d ∈ c.snapshot.speedDevices) :
      Foreign c initial (Text.trim d.device)
  | nextWord {d : SpeedDevice} {x : String} (mem : d ∈ c.snapshot.speedDevices)
      (h : Device.offset? (Text.trim d.device) 1 = some x) : Foreign c initial x
  | constant {value : Int} (h : c.snapshot.Quotes value) :
      Foreign c initial (Device.constant value)

/-! ## Role bits -/

/-- With unique keys, the first entry with the key of a member is that member. -/
theorem find?_key {α : Type} {key : α → Int32} {xs : List α} (h : (xs.map key).Nodup) {x : α}
    (mem : x ∈ xs) : xs.find? (fun y => key y == key x) = some x := by
  induction xs with
  | nil => cases mem
  | cons y ys ih =>
    rw [List.map_cons, List.nodup_cons] at h
    rcases List.mem_cons.mp mem with rfl | inside
    · simp
    · have differs : key y ≠ key x := fun e => h.1 (e ▸ List.mem_map_of_mem inside)
      rw [List.find?_cons_of_neg (by simpa using differs)]
      exact ih h.2 inside

namespace Snapshot

variable {s : Snapshot}

theorem allowedOffsets_operation (distinct : s.Distinct) {o : Operation} {t : OperationTemplate}
    {a : Allocation} (mem : o ∈ s.operations)
    (known : OperationTemplate.ofCode? o.categoryCode = some t)
    (owned : a.kind = .operation ∧ a.recordId = o.id) :
    s.allowedOffsets a = roleOffsets t.roles := by
  have first := find?_key distinct.operations mem
  simp [allowedOffsets, owned, first, known]

theorem allowedOffsets_cylinder (distinct : s.Distinct) {cy : Cylinder} {k : DriveClass}
    {a : Allocation} (mem : cy ∈ s.cylinders) (known : DriveClass.ofCode? cy.driveCode = some k)
    (owned : a.kind = .cylinder ∧ a.recordId = cy.id) :
    s.allowedOffsets a = roleOffsets k.roles := by
  have first := find?_key distinct.cylinders mem
  simp [allowedOffsets, owned, first, known]

theorem allowedOffsets_process (distinct : s.Distinct) {p : Process} {t : ProcessTemplate}
    {a : Allocation} (mem : p ∈ s.processes)
    (known : ProcessTemplate.ofCode? p.categoryCode = some t)
    (owned : a.kind = .process ∧ a.recordId = p.id) :
    s.allowedOffsets a = roleOffsets t.roles := by
  have first := find?_key distinct.processes mem
  simp [allowedOffsets, owned, first, known]

theorem allowedOffsets_detail {a : Allocation} (owned : a.kind = .detail) :
    s.allowedOffsets a = roleOffsets DetailRole.all := by
  simp [allowedOffsets, owned]

end Snapshot

namespace Context

variable {σ : Type} {c : Context σ}

theorem Fits.mem {ρ : Type} [Role ρ] {owner : Owner} {roles : List ρ} {b : Block}
    (h : c.Fits owner roles b) : b.allocation ∈ c.snapshot.allocations ∧
      b.allocation.kind = owner.kind ∧ b.allocation.recordId = owner.recordId :=
  Snapshot.mem_of_allocation? (Snapshot.block?_eq_some_iff.mp h.found)

/-- A block that fits has room for its roles, and their numbers fit in 32 bits. -/
theorem Fits.covers {ρ : Type} [Role ρ] {owner : Owner} {roles : List ρ} {b : Block}
    (h : c.Fits owner roles b) {role : ρ} (mem : role ∈ roles) :
    b.allocation.covers (Role.offset role) = true ∧
      b.allocation.start.toNat + Role.offset role < UInt32.size := by
  have inside : Role.offset role < requiredBits roles :=
    requiredBits_le_iff.mp (Nat.le_refl _) role mem
  have long := h.long
  have addressable := h.addressable
  simp only [Allocation.addressable, decide_eq_true_eq] at addressable
  simp only [Allocation.covers, decide_eq_true_eq]
  constructor <;> omega

/-- The bit of a role in a block that fits, where the roles are those that the owner may use. -/
theorem Fits.roleBit {ρ : Type} [Role ρ] {owner : Owner} {roles : List ρ} {b : Block}
    (h : c.Fits owner roles b)
    (allowed : c.snapshot.allowedOffsets b.allocation = roleOffsets roles) {role : ρ}
    (mem : role ∈ roles) : c.snapshot.RoleBit (b.bit role) := by
  obtain ⟨covered, addressable⟩ := h.covers mem
  refine ⟨b.allocation, h.mem.1, Role.offset role, ?_, covered, addressable, rfl⟩
  rw [allowed]
  exact List.mem_map_of_mem mem

theorem roleBit_operation (distinct : c.snapshot.Distinct) {o : Operation} {t : OperationTemplate}
    {b : Block} {role : OperationRole} (mem : o ∈ c.snapshot.operations)
    (known : OperationTemplate.ofCode? o.categoryCode = some t) (fits : c.Fits o.owner t.roles b)
    (h : role ∈ t.roles) : c.snapshot.RoleBit (b.bit role) :=
  fits.roleBit (Snapshot.allowedOffsets_operation distinct mem known fits.mem.2) h

theorem roleBit_cylinder (distinct : c.snapshot.Distinct) {cy : Cylinder} {k : DriveClass}
    {b : Block} {role : CylinderRole} (mem : cy ∈ c.snapshot.cylinders)
    (known : DriveClass.ofCode? cy.driveCode = some k) (fits : c.Fits cy.owner k.roles b)
    (h : role ∈ k.roles) : c.snapshot.RoleBit (b.bit role) :=
  fits.roleBit (Snapshot.allowedOffsets_cylinder distinct mem known fits.mem.2) h

theorem roleBit_process (distinct : c.snapshot.Distinct) {p : Process} {t : ProcessTemplate}
    {b : Block} (mem : p ∈ c.snapshot.processes)
    (known : ProcessTemplate.ofCode? p.categoryCode = some t) (fits : c.Fits p.owner t.roles b)
    (role : ProcessRole) : c.snapshot.RoleBit (b.bit role) := by
  refine fits.roleBit (Snapshot.allowedOffsets_process distinct mem known fits.mem.2) ?_
  cases role <;> simp [ProcessTemplate.roles, ProcessRole.all]

theorem roleBit_detail {d : Detail} {b : Block} (fits : c.Fits d.owner DetailRole.all b)
    (role : DetailRole) : c.snapshot.RoleBit (b.bit role) := by
  refine fits.roleBit (Snapshot.allowedOffsets_detail fits.mem.2.1) ?_
  cases role <;> simp [DetailRole.all]

/-! ## Peers -/

open Service (Complete)

variable (complete : Complete c)

include complete

theorem operationFits_of_complete {o : Operation} (mem : o ∈ c.snapshot.operations) :
    c.OperationFits o := by
  obtain ⟨m, ok⟩ := complete.operation o mem
  have here : c.Reached m m := .start
  exact c.emits_operation.answer here ok

theorem processFits_of_complete {p : Process} (mem : p ∈ c.snapshot.processes) :
    c.ProcessFits p := by
  obtain ⟨m, ok⟩ := complete.process p mem
  exact (c.emits_process (I := fun _ => True)).answer trivial ok

/-- The block of another operation holds its roles: that operation was generated too. -/
theorem roleBit_otherOperation (distinct : c.snapshot.Distinct) {o : Operation}
    {t : OperationTemplate} {b : Block} {role : OperationRole} (mem : o ∈ c.snapshot.operations)
    (known : OperationTemplate.ofCode? o.categoryCode = some t)
    (found : c.snapshot.block? .operation o.id = some b) (h : role ∈ t.roles) :
    c.snapshot.RoleBit (b.bit role) := by
  obtain ⟨t', b', known', fits⟩ := operationFits_of_complete complete mem
  rw [known] at known'
  cases known'
  have same : some b' = some b := fits.found.symm.trans found
  cases same
  exact roleBit_operation distinct mem known fits h

/-- The block of a cylinder holds its roles: it was generated. -/
theorem roleBit_otherCylinder (distinct : c.snapshot.Distinct) {cy : Cylinder} {k : DriveClass}
    {b : Block} {role : CylinderRole} (mem : cy ∈ c.snapshot.cylinders)
    (known : DriveClass.ofCode? cy.driveCode = some k)
    (found : c.snapshot.block? .cylinder cy.id = some b) (h : role ∈ k.roles) :
    c.snapshot.RoleBit (b.bit role) := by
  obtain ⟨m, ok⟩ := complete.cylinder cy mem
  have here : c.Reached m m := .start
  obtain ⟨k', b', known', fits⟩ := c.emits_cylinder.answer here ok
  rw [known] at known'
  cases known'
  have same : some b' = some b := fits.found.symm.trans found
  cases same
  exact roleBit_cylinder distinct mem known fits h

theorem roleBit_otherProcess (distinct : c.snapshot.Distinct) {p : Process} {b : Block}
    (mem : p ∈ c.snapshot.processes) (found : c.snapshot.block? .process p.id = some b)
    (role : ProcessRole) : c.snapshot.RoleBit (b.bit role) := by
  obtain ⟨t, b', known, fits⟩ := processFits_of_complete complete mem
  have same : some b' = some b := fits.found.symm.trans found
  cases same
  exact roleBit_process distinct mem known fits role

theorem roleBit_otherDetail {d : Detail} {b : Block} (mem : d ∈ c.snapshot.details)
    (found : c.snapshot.block? .detail d.id = some b) (role : DetailRole) :
    c.snapshot.RoleBit (b.bit role) := by
  obtain ⟨m, ok⟩ := complete.detail d mem
  obtain ⟨b', fits⟩ := (c.emits_detail (I := fun _ => True)).answer trivial ok
  have same : some b' = some b := fits.found.symm.trans found
  cases same
  exact roleBit_detail fits role

omit complete

/-! ## Operands -/

/-- What an operand of a program may be. -/
def Known (c : Context σ) (initial : σ) (x : String) : Prop :=
  c.Foreign initial x ∨ c.snapshot.RoleBit x

variable {initial : σ}

theorem Foreign.delay {t : Timer} (mem : t ∈ c.snapshot.timers) {x : String}
    (h : x ∈ (Action.delay t.number t.preset).row.operands) : c.Foreign initial x := by
  simp only [Action.row, Row.instruction, List.mem_cons, List.not_mem_nil, or_false] at h
  rcases h with rfl | rfl
  · exact .timer mem
  · exact .constant (.preset mem)

theorem Foreign.sensor {o : Operation} {scope name : String} {contact : Contact}
    (mem : o ∈ c.snapshot.operations) (named : name ∈ o.sensorNames)
    (h : c.Senses initial o.owner scope name contact) : c.Foreign initial contact.device := by
  cases h with
  | timer reference => exact .reference mem named reference
  | point answer => exact .address answer
  | missing => exact .signal (by simp [Settings.signals, alwaysOff, Contact.plain])

theorem Foreign.manualSignal {id : Int32} {x : String}
    (h : x ∈ [(resolveManual (c.snapshot.manualControl? id) c.settings).1.go,
      (resolveManual (c.snapshot.manualControl? id) c.settings).1.back,
      (resolveManual (c.snapshot.manualControl? id) c.settings).1.enable]) :
    c.Foreign initial x := by
  unfold resolveManual at h
  split at h
  next m found =>
    obtain ⟨known, _⟩ := Option.filter_eq_some_iff.mp found
    exact .manual (List.mem_of_find?_eq_some known) h
  next =>
    simp only [ManualSignals.none, List.mem_cons, List.not_mem_nil, or_false, or_self] at h
    exact .signal (by simp [Settings.signals, h])

theorem Foreign.speedWord {cy : Cylinder} {b : Block} {word : String}
    (h : (c.drive cy b).SpeedWord word) : c.Foreign initial word := by
  obtain ⟨speed, found, rfl | next⟩ := h
  · exact .speed (List.mem_of_find?_eq_some found)
  · exact .nextWord (List.mem_of_find?_eq_some found) next

/-! ## Contacts -/

/-- The bit of a role in use, or of a speed step that some motion has. -/
inductive Legible (c : Context σ) : String → Prop
  | operation {o : Operation} {t : OperationTemplate} {b : Block} {scope : String}
      {role : OperationRole} (mem : o ∈ c.snapshot.operations)
      (known : OperationTemplate.ofCode? o.categoryCode = some t)
      (found : c.snapshot.block? .operation o.id = some b)
      (uses : (Sequencer.mk c o t b scope).Uses role) : Legible c (b.bit role)
  | step {o : Operation} {t : OperationTemplate} {b : Block} {step : Step}
      (mem : o ∈ c.snapshot.operations)
      (known : OperationTemplate.ofCode? o.categoryCode = some t)
      (found : c.snapshot.block? .operation o.id = some b) (listed : step ∈ t.steps) :
      Legible c (b.bit (OperationRole.speedStep step))
  | cylinder {cy : Cylinder} {k : DriveClass} {b : Block} {role : CylinderRole}
      (mem : cy ∈ c.snapshot.cylinders) (known : DriveClass.ofCode? cy.driveCode = some k)
      (found : c.snapshot.block? .cylinder cy.id = some b) (uses : (c.drive cy b).Uses k role) :
      Legible c (b.bit role)
  | process {p : Process} {b : Block} (mem : p ∈ c.snapshot.processes)
      (found : c.snapshot.block? .process p.id = some b) (role : ProcessRole) :
      Legible c (b.bit role)
  | detail {d : Detail} {b : Block} (mem : d ∈ c.snapshot.details)
      (found : c.snapshot.block? .detail d.id = some b) (role : DetailRole) :
      Legible c (b.bit role)

section Contacts

variable {contact : Contact}

theorem legible_awaited {b : Block} (h : c.Awaits b) : c.Legible (b.bit DetailRole.complete) := by
  obtain ⟨d, mem, found⟩ := h
  exact .detail mem found .complete

theorem legible_of_operationRung {o : Operation} (mem : o ∈ c.snapshot.operations) {r : Rung}
    (h : c.OperationRung initial o r) (inside : contact ∈ r.contacts) :
    c.Foreign initial contact.device ∨ c.Legible contact.device := by
  obtain ⟨t, b, scope, known, fits, proper⟩ := h
  cases proper.reads contact inside with
  | own uses => exact .inr (.operation mem known fits.found uses)
  | unfinished =>
    exact .inr (.operation mem known fits.found (Sequencer.uses_common ⟨c, o, t, b, scope⟩ _ rfl))
  | running carried found =>
    exact .inr (.detail (c.snapshot.mem_detailsOfOperation.mp carried).1 found .running)
  | incomplete carried found =>
    exact .inr (.detail (c.snapshot.mem_detailsOfOperation.mp carried).1 found .complete)
  | off => exact .inl (.signal (by simp [Settings.signals, alwaysOff, Contact.plain]))
  | reset =>
    exact .inl (.signal (by simp [Settings.signals, Sequencer.resetSignal, Contact.inverted]))
  | pause => exact .inl (.signal (by simp [Settings.signals, Contact.inverted]))
  | timer found => exact .inl (.timer (Snapshot.mem_of_timer found))
  | sensor named senses => exact .inl (.sensor mem named senses)

/-- What a motion shows to its cylinder is a role that its operation uses, or a speed step. -/
theorem legible_of_shows {o : Operation} {t : OperationTemplate} {b : Block} {role : OperationRole}
    (mem : o ∈ c.snapshot.operations) (known : OperationTemplate.ofCode? o.categoryCode = some t)
    (found : c.snapshot.block? .operation o.id = some b) (shows : (Motion.mk o t b).Shows role) :
    c.Legible (b.bit role) := by
  have in_use (uses : (Sequencer.mk c o t b "").Uses role) : c.Legible (b.bit role) :=
    .operation mem known found uses
  cases shows with
  | running => exact in_use (Sequencer.uses_common _ _ rfl)
  | held template => exact in_use (Sequencer.uses_hold _ template)
  | positioning template => exact in_use (Sequencer.uses_positioning _ template (.inl rfl))
  | step listed => exact .step mem known found listed

theorem legible_of_cylinderRung {cy : Cylinder} (mem : cy ∈ c.snapshot.cylinders) {r : Rung}
    (h : c.CylinderRung initial cy r) (inside : contact ∈ r.contacts) :
    c.Foreign initial contact.device ∨ c.Legible contact.device := by
  obtain ⟨k, b, known, fits, proper⟩ := h
  cases proper.reads contact inside with
  | own uses => exact .inr (.cylinder mem known fits.found uses)
  | ownInverted uses => exact .inr (.cylinder mem known fits.found uses)
  | motion listed shows =>
    obtain ⟨operation, template, found⟩ := Snapshot.mem_motionsOf listed
    have peer := (c.snapshot.mem_operationsOf.mp operation).1
    exact .inr (legible_of_shows peer template found shows)
  | off => exact .inl (.signal (by simp [Settings.signals, alwaysOff, drive, Contact.plain]))
  | manual signal => exact .inl (.manualSignal signal)
  | automatic => exact .inl (.signal (by simp [Settings.signals, drive, Contact.plain]))
  | pause => exact .inl (.signal (by simp [Settings.signals, drive, Contact.plain]))
  | interlock connects =>
    obtain ⟨point, answer⟩ := connects
    exact .inl (.address answer)
  | timer found => exact .inl (.timer (Snapshot.mem_of_timer found))

theorem legible_of_processRung {p : Process} (mem : p ∈ c.snapshot.processes) {r : Rung}
    (h : c.ProcessRung p r) (inside : contact ∈ r.contacts) :
    c.Foreign initial contact.device ∨ c.Legible contact.device := by
  obtain ⟨t, b, known, fits, proper⟩ := h
  cases proper.reads contact inside with
  | own role => exact .inr (.process mem fits.found role)
  | awaited awaits => exact .inr (legible_awaited awaits)
  | signal negated listed =>
    simp only [List.mem_cons, List.not_mem_nil, or_false] at listed
    refine .inl (.signal ?_)
    rcases listed with rfl | rfl | rfl | rfl | rfl <;> simp [Settings.signals]
  | timer found => exact .inl (.timer (Snapshot.mem_of_timer found))

theorem legible_of_detailRung {d : Detail} (mem : d ∈ c.snapshot.details) {r : Rung}
    (h : c.DetailRung d r) (inside : contact ∈ r.contacts) : c.Legible contact.device := by
  obtain ⟨b, owned, fits, proper⟩ := h
  obtain ⟨p, process, same⟩ := c.snapshot.hasProcess_iff.mp owned
  cases proper.reads contact inside with
  | own role => exact .detail mem fits.found role
  | running found =>
    rw [← same] at found
    exact .process process found .running
  | awaited awaits => exact legible_awaited awaits
  | settled operation template found =>
    exact .operation operation template found (Sequencer.uses_common ⟨c, _, _, _, ""⟩ _ rfl)

/-- Whichever entity a rung comes from, its contacts read foreign devices or bits in use. -/
theorem legible_of_origin {r : Rung} (h : Service.Origin c (c.Reached initial) r)
    (inside : contact ∈ r.contacts) :
    c.Foreign initial contact.device ∨ c.Legible contact.device := by
  cases h with
  | operation o m hm mem found =>
    exact legible_of_operationRung mem (c.emits_operation.rung hm found) inside
  | cylinder cy m hm mem found =>
    exact legible_of_cylinderRung mem (c.emits_cylinder.rung hm found) inside
  | process p m hm mem found =>
    exact legible_of_processRung mem (c.emits_process.rung hm found) inside
  | detail d m hm mem found =>
    exact .inr (legible_of_detailRung mem (c.emits_detail.rung hm found) inside)

end Contacts

section Entities

variable (complete : Complete c) (distinct : c.snapshot.Distinct)

include complete distinct

theorem roleBit_of_legible {x : String} (h : c.Legible x) : c.snapshot.RoleBit x := by
  cases h with
  | operation mem known found uses =>
    exact roleBit_otherOperation complete distinct mem known found uses.mem
  | step mem known found listed =>
    refine roleBit_otherOperation complete distinct mem known found ?_
    simp [OperationTemplate.roles, listed]
  | cylinder mem known found uses =>
    exact roleBit_otherCylinder complete distinct mem known found uses.mem
  | process mem found role => exact roleBit_otherProcess complete distinct mem found role
  | detail mem found role => exact roleBit_otherDetail complete mem found role

omit complete

theorem known_of_operationRung {o : Operation} (mem : o ∈ c.snapshot.operations) {r : Rung}
    (h : c.OperationRung initial o r) {a : Action} (inside : a ∈ r.actions) {x : String}
    (hx : x ∈ a.row.operands) : c.Known initial x := by
  obtain ⟨t, b, scope, known, fits, proper⟩ := h
  cases proper.acts a inside with
  | out uses =>
    rw [List.mem_singleton.mp hx]
    exact .inr (roleBit_operation distinct mem known fits uses.mem)
  | pulse uses =>
    rw [List.mem_singleton.mp hx]
    exact .inr (roleBit_operation distinct mem known fits uses.mem)
  | delay found => exact .inl (.delay (Snapshot.mem_of_timer found) hx)

theorem known_of_cylinderRung {cy : Cylinder} (mem : cy ∈ c.snapshot.cylinders) {r : Rung}
    (h : c.CylinderRung initial cy r) {a : Action} (inside : a ∈ r.actions) {x : String}
    (hx : x ∈ a.row.operands) : c.Known initial x := by
  obtain ⟨k, b, known, fits, proper⟩ := h
  cases proper.acts a inside with
  | out uses =>
    rw [List.mem_singleton.mp hx]
    exact .inr (roleBit_cylinder distinct mem known fits uses.mem)
  | output connects =>
    obtain ⟨point, answer⟩ := connects
    rw [List.mem_singleton.mp hx]
    exact .inl (.address answer)
  | delay found => exact .inl (.delay (Snapshot.mem_of_timer found) hx)
  | move moves =>
    obtain ⟨value, word⟩ := moves
    simp only [Action.row, Row.instruction, List.mem_cons, List.not_mem_nil, or_false] at hx
    rcases hx with rfl | rfl
    · rcases value with rfl | ⟨m, listed, value⟩
      · exact .inl (.constant .zero)
      · obtain ⟨operation, _⟩ := Snapshot.mem_motionsOf listed
        have peer := (c.snapshot.mem_operationsOf.mp operation).1
        exact .inl (.constant (.value peer value))
    · exact .inl (.speedWord word)

theorem known_of_processRung {p : Process} (mem : p ∈ c.snapshot.processes) {r : Rung}
    (h : c.ProcessRung p r) {a : Action} (inside : a ∈ r.actions) {x : String}
    (hx : x ∈ a.row.operands) : c.Known initial x := by
  obtain ⟨t, b, known, fits, proper⟩ := h
  have bit (role : ProcessRole) : c.Known initial (b.bit role) :=
    .inr (roleBit_process distinct mem known fits role)
  cases proper.acts a inside with
  | out role => exact List.mem_singleton.mp hx ▸ bit role
  | set role => exact List.mem_singleton.mp hx ▸ bit role
  | reset role => exact List.mem_singleton.mp hx ▸ bit role
  | delay found => exact .inl (.delay (Snapshot.mem_of_timer found) hx)
  | jump number =>
    rw [List.mem_singleton.mp hx]
    exact .inl (.pointer mem number)

omit distinct in
theorem known_of_detailRung {d : Detail} {r : Rung} (h : c.DetailRung d r) {a : Action}
    (inside : a ∈ r.actions) {x : String} (hx : x ∈ a.row.operands) : c.Known initial x := by
  obtain ⟨b, owned, fits, proper⟩ := h
  cases proper.acts a inside with
  | out role =>
    rw [List.mem_singleton.mp hx]
    exact .inr (roleBit_detail fits role)

/-- Whichever entity a rung comes from, the operands of its actions are foreign or bits of roles. -/
theorem known_of_action {r : Rung} (h : Service.Origin c (c.Reached initial) r) {a : Action}
    (inside : a ∈ r.actions) {x : String} (hx : x ∈ a.row.operands) : c.Known initial x := by
  cases h with
  | operation o m hm mem found =>
    exact known_of_operationRung distinct mem (c.emits_operation.rung hm found) inside hx
  | cylinder cy m hm mem found =>
    exact known_of_cylinderRung distinct mem (c.emits_cylinder.rung hm found) inside hx
  | process p m hm mem found =>
    exact known_of_processRung distinct mem (c.emits_process.rung hm found) inside hx
  | detail d m hm mem found =>
    exact known_of_detailRung (c.emits_detail.rung hm found) inside hx

include complete

/-- Whichever entity a rung comes from, its operands are foreign or bits of roles. -/
theorem known_of_origin {r : Rung} (h : Service.Origin c (c.Reached initial) r) {row : Row}
    (inside : row ∈ r.rows) {x : String} (hx : x ∈ row.operands) : c.Known initial x := by
  rcases Rung.mem_operands inside hx with ⟨contact, listed, rfl⟩ | ⟨a, listed, operand⟩
  · exact (legible_of_origin h listed).imp_right (roleBit_of_legible complete distinct)
  · exact known_of_action distinct h listed operand

end Entities

/-- An entity asks the resolver and changes the memory in no other way. -/
theorem preserves_reached (c : Context σ) (initial : σ) :
    Service.Preserves c (c.Reached initial) where
  operation _ _ hm := c.emits_operation.memory hm
  cylinder _ _ hm := c.emits_cylinder.memory hm
  process _ _ hm := c.emits_process.memory hm
  detail _ _ hm := c.emits_detail.memory hm

end Context

end Rungs
