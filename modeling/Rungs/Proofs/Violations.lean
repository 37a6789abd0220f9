import Mathlib.Data.List.Basic
import Rungs.Conformance
import Rungs.Proofs.Lookup

/-! What the check of a program reports: every use of an allocated device that is no role of the
allocation's owner, once for each allocation that holds the device, and nothing else
(`violations_exact`). Allocations may overlap, run out of 32 bits or be repeated for an entity. -/

namespace Rungs

/-- The second list has, in order, one item for every item of the first that is related to one. -/
inductive Lists {α β : Type} (R : α → β → Prop) : List α → List β → Prop
  | nil : Lists R [] []
  | hit {a : α} {b : β} {rest : List α} {found : List β} (h : R a b) (more : Lists R rest found) :
      Lists R (a :: rest) (b :: found)
  | miss {a : α} {rest : List α} {found : List β} (h : ∀ b, ¬R a b) (more : Lists R rest found) :
      Lists R (a :: rest) found

theorem lists_iff_filterMap {α β : Type} {R : α → β → Prop} {f : α → Option β} {as : List α}
    {bs : List β} (same : ∀ a ∈ as, ∀ b, R a b ↔ f a = some b) :
    Lists R as bs ↔ bs = as.filterMap f := by
  induction as generalizing bs with
  | nil =>
    constructor
    · rintro ⟨⟩
      rfl
    · rintro rfl
      exact .nil
  | cons a rest ih =>
    have first := same a List.mem_cons_self
    have others {found : List β} : Lists R rest found ↔ found = rest.filterMap f :=
      ih fun c mem => same c (List.mem_cons_of_mem a mem)
    constructor
    · rintro (_ | ⟨hit, more⟩ | ⟨miss, more⟩)
      · rw [List.filterMap_cons_some ((first _).mp hit), ← others.mp more]
      · have none : f a = none :=
          Option.eq_none_iff_forall_ne_some.mpr fun b found => miss b ((first b).mpr found)
        rw [List.filterMap_cons_none none, ← others.mp more]
    · rintro rfl
      cases answer : f a with
      | some b =>
        rw [List.filterMap_cons_some answer]
        exact .hit ((first b).mpr answer) (others.mpr rfl)
      | none =>
        rw [List.filterMap_cons_none answer]
        refine .miss (fun b related => ?_) (others.mpr rfl)
        rw [(first b).mp related] at answer
        cases answer

namespace Snapshot

/-- The offsets in its block that an entity may use: those of the roles of the class of the first
entity with its id, and those of all details. -/
inductive RoleOffset (s : Snapshot) : EntityKind → Int32 → Nat → Prop
  | operation {id : Int32} {o : Operation} {t : OperationTemplate} {role : OperationRole}
      (first : FirstOf (fun o : Operation => o.id = id) s.operations o)
      (known : OperationTemplate.ofCode? o.categoryCode = some t) (mem : role ∈ t.roles) :
      s.RoleOffset .operation id role.offset
  | cylinder {id : Int32} {c : Cylinder} {drive : DriveClass} {role : CylinderRole}
      (first : FirstOf (fun c : Cylinder => c.id = id) s.cylinders c)
      (known : DriveClass.ofCode? c.driveCode = some drive) (mem : role ∈ drive.roles) :
      s.RoleOffset .cylinder id role.offset
  | process {id : Int32} {p : Process} {t : ProcessTemplate} {role : ProcessRole}
      (first : FirstOf (fun p : Process => p.id = id) s.processes p)
      (known : ProcessTemplate.ofCode? p.categoryCode = some t) (mem : role ∈ t.roles) :
      s.RoleOffset .process id role.offset
  | detail {id : Int32} {k : Nat} (h : k < 3) : s.RoleOffset .detail id k

/-- Looking an entity up, then its class, then the roles of the class. -/
theorem mem_classOffsets {ε τ ρ : Type} [Role ρ] {entities : List ε} {key : ε → Int32} {id : Int32}
    {class? : ε → Option τ} {roles : τ → List ρ} {k : Nat} :
    k ∈ (((entities.find? (key · == id)).bind class?).map fun t => roleOffsets (roles t)).getD [] ↔
      ∃ e t role, FirstOf (fun e => key e = id) entities e ∧ class? e = some t ∧ role ∈ roles t ∧
        Role.offset role = k := by
  have find {e : ε} : entities.find? (key · == id) = some e ↔
      FirstOf (fun e => key e = id) entities e :=
    find?_eq_some_iff_firstOf fun e => beq_iff_eq
  constructor
  · intro mem
    cases found : (entities.find? (key · == id)).bind class? with
    | none => simp [found] at mem
    | some t =>
      obtain ⟨e, first, known⟩ := Option.bind_eq_some_iff.mp found
      rw [found, Option.map_some, Option.getD_some, roleOffsets, List.mem_map] at mem
      obtain ⟨role, listed, rfl⟩ := mem
      exact ⟨e, t, role, find.mp first, known, listed, rfl⟩
  · rintro ⟨e, t, role, first, known, listed, rfl⟩
    rw [find.mpr first, Option.bind_some, known, Option.map_some, Option.getD_some, roleOffsets]
    exact List.mem_map_of_mem listed

theorem mem_allowedOffsets_iff {s : Snapshot} {a : Allocation} {k : Nat} :
    k ∈ s.allowedOffsets a ↔ s.RoleOffset a.kind a.recordId k := by
  rcases a with ⟨kind, id, label, start, count⟩
  cases kind with
  | operation =>
    refine mem_classOffsets.trans ⟨?_, fun offset => ?_⟩
    · rintro ⟨o, t, role, first, known, mem, rfl⟩
      exact .operation first known mem
    · cases offset with
      | operation first known mem => exact ⟨_, _, _, first, known, mem, rfl⟩
  | cylinder =>
    refine mem_classOffsets.trans ⟨?_, fun offset => ?_⟩
    · rintro ⟨c, drive, role, first, known, mem, rfl⟩
      exact .cylinder first known mem
    · cases offset with
      | cylinder first known mem => exact ⟨_, _, _, first, known, mem, rfl⟩
  | process =>
    refine mem_classOffsets.trans ⟨?_, fun offset => ?_⟩
    · rintro ⟨p, t, role, first, known, mem, rfl⟩
      exact .process first known mem
    · cases offset with
      | process first known mem => exact ⟨_, _, _, first, known, mem, rfl⟩
  | detail =>
    have three : k ∈ roleOffsets DetailRole.all ↔ k = 0 ∨ k = 1 ∨ k = 2 := by
      simp [roleOffsets, DetailRole.all, Role.offset, DetailRole.offset]
    refine three.trans ⟨fun small => .detail (by omega), fun offset => ?_⟩
    cases offset with
    | detail small => omega

/-- An operand of a row, held against an allocation. -/
structure Reference where
  row : Row
  operand : String
  allocation : Allocation

/-- Every operand of every row with every allocation, in this order. -/
def references (s : Snapshot) (p : Program) : List Reference :=
  p.rows.flatMap fun row => row.operands.flatMap fun operand =>
    s.allocations.map fun a => ⟨row, operand, a⟩

/-- The operand is a device of the allocation, and no role of the allocation's owner. -/
inductive Misuses (s : Snapshot) (ref : Reference) : Violation → Prop
  | intro (number : UInt32) (named : Device.Names ref.operand ref.allocation.label number.toNat)
      (above : ref.allocation.start.toNat ≤ number.toNat)
      (below : number.toNat < ref.allocation.start.toNat + ref.allocation.count.toNat)
      (foreign : ¬s.RoleOffset ref.allocation.kind ref.allocation.recordId
        (number.toNat - ref.allocation.start.toNat)) :
      s.Misuses ref ⟨ref.row.id, ref.operand, ref.allocation.kind, ref.allocation.recordId,
        number.toNat - ref.allocation.start.toNat⟩

/-- What the check reports of one reference. -/
def misuse? (s : Snapshot) (ref : Reference) : Option Violation :=
  match Device.split? ref.operand with
  | none => none
  | some (label, number) =>
    if ref.allocation.label == label then
      s.violation? ref.row.id ref.operand number ref.allocation
    else none

variable {s : Snapshot}

theorem operandViolations_eq (row : Row) (operand : String) :
    s.operandViolations row.id operand =
      s.allocations.filterMap fun a => s.misuse? ⟨row, operand, a⟩ := by
  unfold operandViolations misuse?
  dsimp only
  cases Device.split? operand with
  | none => exact (List.filterMap_eq_nil_iff.mpr fun _ _ => rfl).symm
  | some split => exact List.filterMap_filter

theorem violations_eq (p : Program) : s.violations p = (s.references p).filterMap s.misuse? := by
  rw [violations, references, List.filterMap_flatMap]
  refine List.flatMap_congr fun row _ => ?_
  rw [List.filterMap_flatMap]
  refine List.flatMap_congr fun operand _ => ?_
  rw [operandViolations_eq, List.filterMap_map]
  rfl

theorem misuses_iff {ref : Reference} (proper : Device.IsLabel ref.allocation.label)
    {v : Violation} : s.Misuses ref v ↔ s.misuse? ref = some v := by
  unfold misuse?
  constructor
  · rintro ⟨number, named, above, below, foreign⟩
    rw [Device.split?_eq_some_iff.mpr ⟨proper, named⟩]
    have covered : ref.allocation.covers (number.toNat - ref.allocation.start.toNat) = true :=
      decide_eq_true (by omega)
    rw [← mem_allowedOffsets_iff] at foreign
    simp [violation?, UInt32.le_iff_toNat_le.mpr above, covered, foreign]
  · intro reported
    split at reported
    next => cases reported
    next label number split =>
      rw [Option.ite_none_right_eq_some, beq_iff_eq] at reported
      obtain ⟨rfl, reported⟩ := reported
      rw [violation?, Option.ite_none_right_eq_some] at reported
      obtain ⟨⟨above, covered, foreign⟩, reported⟩ := reported
      rw [UInt32.le_iff_toNat_le] at above
      have covered := of_decide_eq_true covered
      rw [mem_allowedOffsets_iff] at foreign
      rw [← Option.some.inj reported]
      exact .intro number (Device.split?_eq_some_iff.mp split).2 above (by omega) foreign

theorem mem_references {p : Program} {ref : Reference} : ref ∈ s.references p ↔
    ref.row ∈ p.rows ∧ ref.operand ∈ ref.row.operands ∧ ref.allocation ∈ s.allocations := by
  simp only [references, List.mem_flatMap, List.mem_map]
  constructor
  · rintro ⟨row, inside, operand, held, a, listed, rfl⟩
    exact ⟨inside, held, listed⟩
  · rintro ⟨inside, held, listed⟩
    exact ⟨ref.row, inside, ref.operand, held, ref.allocation, listed, rfl⟩

theorem Misuses.foreign {ref : Reference} {v : Violation} (h : s.Misuses ref v) :
    ¬s.RoleOffset v.kind v.recordId v.offset := by
  cases h with
  | intro number named above below foreign => exact foreign

/-- A device that an allocation renders is misused there if its offset is none of the owner's. -/
theorem misuses_device {a : Allocation} {k : Nat} (covered : k < a.count.toNat)
    (fits : a.start.toNat + k < UInt32.size) (row : Row)
    (foreign : ¬s.RoleOffset a.kind a.recordId k) :
    s.Misuses ⟨row, a.device k, a⟩ ⟨row.id, a.device k, a.kind, a.recordId, k⟩ := by
  obtain ⟨number, value⟩ : ∃ number : UInt32, number.toNat = a.start.toNat + k :=
    ⟨_, UInt32.toNat_ofNat_of_lt' fits⟩
  have distance : number.toNat - a.start.toNat = k := by omega
  have named : Device.Names (a.device k) a.label number.toNat :=
    value ▸ Device.names_numbered a.label (a.start.toNat + k)
  have above : a.start.toNat ≤ number.toNat := by omega
  have below : number.toNat < a.start.toNat + a.count.toNat := by omega
  rw [← distance] at foreign
  have misuse : s.Misuses ⟨row, a.device k, a⟩ _ := .intro number named above below foreign
  simpa only [distance] using misuse

/-- Where labels are proper, the check lists the misuses in the order of rows, operands and
allocations, one for each, and there is no other such list. A device that an allocation renders is
reported just when its offset is none of the owner's. -/
theorem violations_exact (s : Snapshot) (p : Program)
    (labels : ∀ a ∈ s.allocations, Device.IsLabel a.label) :
    (∀ found, Lists s.Misuses (s.references p) found ↔ found = s.violations p) ∧
    ∀ a ∈ s.allocations, ∀ k, k < a.count.toNat → a.start.toNat + k < UInt32.size →
      ∀ row ∈ p.rows, a.device k ∈ row.operands →
        (⟨row.id, a.device k, a.kind, a.recordId, k⟩ ∈ s.violations p ↔
          ¬s.RoleOffset a.kind a.recordId k) := by
  have same : ∀ ref ∈ s.references p, ∀ v, s.Misuses ref v ↔ s.misuse? ref = some v :=
    fun ref mem v => misuses_iff (labels _ (mem_references.mp mem).2.2)
  refine ⟨fun found => ?_, fun a listed k covered fits row inside held => ?_⟩
  · rw [violations_eq]
    exact lists_iff_filterMap same
  · rw [violations_eq, List.mem_filterMap]
    constructor
    · rintro ⟨ref, mem, reported⟩
      exact ((same ref mem _).mpr reported).foreign
    · intro foreign
      have mem : ⟨row, a.device k, a⟩ ∈ s.references p := mem_references.mpr ⟨inside, held, listed⟩
      exact ⟨_, mem, (same _ mem _).mp (misuses_device covered fits row foreign)⟩

/-- The allocations of a process, of a detail that begins inside it, and of a process that is not
there, at the end of the address range. -/
private def overlapping : Snapshot where
  processes := [{ id := 1, categoryCode := 1 }]
  allocations := [⟨.process, 1, "M", 100, 5⟩, ⟨.detail, 7, "M", 103, 4⟩,
    ⟨.process, 9, "M", 4294967294, 9⟩]

/-- Rows that use the second device of the detail, one behind its roles under a padded number, the
last device of all, and none that exists. -/
private def borrowing : Program := ({} : Program).push .operation
  [.instruction .mov ["K104", "M104"], .instruction .ld ["M00106"],
    .instruction .out ["M4294967295"], .instruction .out ["M4294967296"]]

theorem violations_exact_overlapping :
    (∀ a ∈ overlapping.allocations, Device.IsLabel a.label) ∧
      (∀ found, Lists overlapping.Misuses (overlapping.references borrowing) found ↔
        found = [⟨0, "M104", .process, 1, 4⟩, ⟨1, "M00106", .detail, 7, 3⟩,
          ⟨2, "M4294967295", .process, 9, 1⟩]) ∧
      ¬overlapping.RoleOffset .process 1 4 ∧ overlapping.RoleOffset .detail 7 1 := by
  have labels : ∀ a ∈ overlapping.allocations, Device.IsLabel a.label := by
    have named : ∀ a ∈ overlapping.allocations, a.label = "M" := by simp [overlapping]
    intro a mem
    rw [named a mem]
    exact ⟨by simp, by simp⟩
  have reported : overlapping.violations borrowing = [⟨0, "M104", .process, 1, 4⟩,
      ⟨1, "M00106", .detail, 7, 3⟩, ⟨2, "M4294967295", .process, 9, 1⟩] := by decide
  have exact := overlapping.violations_exact borrowing labels
  rw [reported] at exact
  refine ⟨labels, exact.1, ?_, .detail (by decide)⟩
  have row : .instruction .mov ["K104", "M104"] ∈ borrowing.rows := by decide
  exact (exact.2 ⟨.process, 1, "M", 100, 5⟩ (by decide) 4 (by decide) (by decide) _ row
    (by decide)).mp (by decide)

end Snapshot

end Rungs
