import Rungs.Proofs.Cylinder.Layout
import Rungs.Proofs.Drivers

/-! What the rungs of a cylinder drive: each role that its drive uses by one output, and besides
these only addresses of its wiring. -/

namespace Rungs

def CylinderRole.coils (_ : CylinderRole) : List Command := [.out]

namespace Drive

variable {σ : Type} (d : Drive σ)

/-- The hold of a side, if there are motions to hold it for. -/
def held (motions : List Motion) (role : CylinderRole) : List CylinderRole :=
  if (retained motions).isEmpty then [] else [role]

/-- The deceleration, if there is a timer for it. -/
def slowed : List CylinderRole := if d.decelerationTimer.isFound then [.decelerate] else []

/-- The roles that a drive of a class drives beside the common ones. -/
def special : DriveClass → List CylinderRole
  | .singleValve => held d.goMotions .retainGo
  | .doubleValve | .flowValve => held d.goMotions .retainGo ++ held d.backMotions .retainBack
  | .motor => []
  | .inverter => d.slowed
  | .servo => [.servoStart, .brakeRelease]

def driven (k : DriveClass) : List CylinderRole := DriveClass.commonRoles ++ d.special k

def drivenBits (roles : List CylinderRole) : List (String × Command) :=
  d.block.drives CylinderRole.coils roles

variable {d} {k : DriveClass} {w : Wiring} {role : CylinderRole} {rungs : List Rung} {x : String}

/-! ## What each part drives -/

theorem drives_commonRungs : drives d.commonRungs = d.drivenBits DriveClass.commonRoles := by
  have collects (motions : List Motion) (role : OperationRole) (target : CylinderRole) :
      (d.collect motions role target).actions = [.out (d.bit target)] := Rung.actions_anyOf
  rw [commonRungs]
  simp only [drives_cons, drives_nil, Rung.actions_under, collects]
  rfl

theorem drives_holdRungs (motions : List Motion) (opposite target : CylinderRole) :
    drives (d.holdRungs motions opposite target) = d.drivenBits (held motions target) := by
  unfold holdRungs held
  cases h : retained motions with
  | nil => rfl
  | cons m rest => rfl

theorem drives_sideHolds : drives d.sideHolds =
    d.drivenBits (held d.goMotions .retainGo ++ held d.backMotions .retainBack) := by
  rw [sideHolds, drives_append, drives_holdRungs, drives_holdRungs, drivenBits, drivenBits,
    drivenBits, Block.drives_append]

/-- An output coil drives its addresses. -/
theorem commandsOn_coilRungs {command : CylinderRole} {hold : Option CylinderRole}
    {interlocks : List Contact} {addresses : List String} (outside : x ∉ addresses) :
    commandsOn x (drives (d.coilRungs command hold interlocks addresses)) = [] := by
  refine commandsOn_eq_nil fun driven mem same => outside ?_
  obtain ⟨r, listed, inside⟩ := List.mem_flatMap.mp mem
  obtain ⟨a, action, drive⟩ := List.mem_filterMap.mp inside
  refine mem_of_mem_targets_coilRungs listed (Rung.mem_targets.mpr ⟨a, action, ?_⟩)
  rw [← same]
  exact Action.target?_of_drive? drive

/-- Rungs that decide on no device drive nothing. -/
theorem drives_of_targets (h : ∀ r ∈ rungs, r.targets = []) : drives rungs = [] := by
  refine List.eq_nil_iff_forall_not_mem.mpr fun driven mem => ?_
  obtain ⟨r, listed, inside⟩ := List.mem_flatMap.mp mem
  obtain ⟨a, action, drive⟩ := List.mem_filterMap.mp inside
  have target : driven.1 ∈ r.targets :=
    Rung.mem_targets.mpr ⟨a, action, Action.target?_of_drive? drive⟩
  rw [h r listed] at target
  cases target

theorem drives_slowRungs (word : String) :
    drives (d.slowRungs word) = d.drivenBits d.slowed := by
  unfold slowRungs slowed
  cases d.decelerationTimer <;> rfl

theorem drives_positioning :
    drives [d.collect d.positioningMotions .positioningStart .servoStart] =
      d.drivenBits [.servoStart] := by
  rw [drives_cons, collect, Rung.actions_anyOf]
  rfl

theorem drives_brakeRung : drives [d.brakeRung] = d.drivenBits [.brakeRelease] := rfl

/-- The rungs of a drive drive its roles and, for the rest, addresses of the wiring. -/
theorem Layout.commandsOn (layout : d.Layout w k rungs) (outside : x ∉ w.all) :
    commandsOn x (drives rungs) = Rungs.commandsOn x (d.drivenBits (d.driven k)) := by
  simp only [Wiring.all, Wiring.sides, List.mem_append, not_or] at outside
  obtain ⟨⟨go, back⟩, others⟩ := outside
  have sides {command command' : CylinderRole} {hold hold' : Option CylinderRole}
      {interlocks interlocks' : List Contact} :
      Rungs.commandsOn x (drives (d.coilRungs command hold interlocks w.go ++
        d.coilRungs command' hold' interlocks' w.back)) = [] := by
    rw [drives_append, commandsOn_append, commandsOn_coilRungs go, commandsOn_coilRungs back]
    rfl
  have whole : d.drivenBits (d.driven k) =
      d.drivenBits DriveClass.commonRoles ++ d.drivenBits (d.special k) := Block.drives_append _
  rw [whole, ← drives_commonRungs, commandsOn_append]
  cases layout with
  | singleValve hold back others =>
    rw [drives_append, drives_append, drives_holdRungs, commandsOn_append, commandsOn_append,
      commandsOn_coilRungs go, List.append_nil]
    rfl
  | doubleValve holdGo holdBack others =>
    rw [drives_append, drives_append, drives_sideHolds, commandsOn_append, commandsOn_append,
      valveRungs, sides, List.append_nil]
    rfl
  | flowValve holdGo holdBack moves moving others =>
    rw [drives_append, drives_append, drives_append, drives_sideHolds, drives_of_targets moving,
      List.append_nil, commandsOn_append, commandsOn_append, valveRungs, sides, List.append_nil]
    rfl
  | motor others =>
    rw [drives_append, commandsOn_append, motorRungs, sides]
    rfl
  | inverter word moves moving others =>
    rw [drives_append, drives_append, drives_append, drives_of_targets moving, drives_slowRungs,
      List.nil_append, commandsOn_append, commandsOn_append, motorRungs, sides, List.nil_append]
    rfl
  | servo moves start brake moving listed =>
    rw [listed, List.mem_append, not_or] at others
    simp only [servoRungs, jogRungs, drives_append, commandsOn_append, drives_positioning,
      drives_of_targets moving, commandsOn_coilRungs go, commandsOn_coilRungs back,
      commandsOn_coilRungs others.1, commandsOn_coilRungs others.2, List.append_nil,
      List.nil_append]
    rw [← commandsOn_append]
    rfl

/-- Every bit that a drive has to drive is driven, whatever addresses its wiring holds. -/
theorem Layout.drivenBits_subset (layout : d.Layout w k rungs) :
    d.drivenBits (d.driven k) ⊆ drives rungs := by
  have whole : d.drivenBits (d.driven k) =
      d.drivenBits DriveClass.commonRoles ++ d.drivenBits (d.special k) := Block.drives_append _
  have rest {others : List Rung} (special : d.drivenBits (d.special k) ⊆ drives others) :
      d.drivenBits (d.driven k) ⊆ drives (d.commonRungs ++ others) := by
    rw [whole, ← drives_commonRungs, drives_append]
    exact List.append_subset.mpr ⟨List.subset_append_left _ _,
      List.Subset.trans special (List.subset_append_right _ _)⟩
  cases layout with
  | singleValve hold back others =>
    refine rest ?_
    rw [drives_append, drives_holdRungs]
    exact List.subset_append_left _ _
  | doubleValve holdGo holdBack others =>
    refine rest ?_
    rw [drives_append, drives_sideHolds]
    exact List.subset_append_left _ _
  | flowValve holdGo holdBack moves moving others =>
    refine rest ?_
    rw [drives_append, drives_append, drives_sideHolds, List.append_assoc]
    exact List.subset_append_left _ _
  | motor others => exact rest (List.nil_subset _)
  | inverter word moves moving others =>
    refine rest ?_
    rw [drives_append, drives_append, drives_slowRungs, ← List.append_assoc]
    exact List.subset_append_right _ _
  | servo moves start brake moving others =>
    have both : d.drivenBits (d.special .servo) =
        d.drivenBits [.servoStart] ++ d.drivenBits [.brakeRelease] := rfl
    refine rest ?_
    rw [both, ← drives_positioning, ← drives_brakeRung]
    simp only [servoRungs, drives_append, List.append_assoc]
    refine List.append_subset.mpr ⟨List.subset_append_left _ _, ?_⟩
    exact List.subset_append_of_subset_right _ <| List.subset_append_of_subset_right _ <|
      List.subset_append_of_subset_right _ <| List.subset_append_left _ _

/-! ## The roles driven -/

theorem driven_nodup (d : Drive σ) (k : DriveClass) : (d.driven k).Nodup := by
  have all : ∀ k : DriveClass, k.roles.Nodup := by
    intro k
    cases k <;> decide
  have given (motions : List Motion) (role : CylinderRole) :
      (held motions role).Sublist [role] := by
    unfold held
    split
    · exact List.nil_sublist _
    · exact List.Sublist.refl _
  have slows : d.slowed.Sublist [.decelerate] := by
    unfold slowed
    split
    · exact List.Sublist.refl _
    · exact List.nil_sublist _
  refine (all k).sublist (List.Sublist.append (List.Sublist.refl _) ?_)
  cases k with
  | singleValve => exact given _ _
  | doubleValve | flowValve => exact (given _ _).append (given _ _)
  | motor | servo => exact List.Sublist.refl _
  | inverter => exact slows

theorem mem_held {motions : List Motion} {target : CylinderRole} :
    role ∈ held motions target ↔ retained motions ≠ [] ∧ role = target := by
  simp [held, List.mem_ite_nil_left]

theorem mem_slowed : role ∈ d.slowed ↔
    (∃ t, d.decelerationTimer = .found t) ∧ role = .decelerate := by
  simp [slowed, List.mem_ite_nil_right, TimerLookup.isFound_iff]

/-- A drive drives the roles that it uses. -/
theorem mem_driven : role ∈ d.driven k ↔ d.Uses k role := by
  rw [driven, List.mem_append]
  constructor
  · rintro (common | mem)
    · exact uses_common (List.contains_iff_mem.mpr common)
    · cases k with
      | singleValve =>
        obtain ⟨some, rfl⟩ := mem_held.mp mem
        exact ⟨by decide, fun _ => some, nofun, nofun⟩
      | doubleValve | flowValve =>
        rcases List.mem_append.mp mem with go | back
        · obtain ⟨some, rfl⟩ := mem_held.mp go
          exact ⟨by decide, fun _ => some, nofun, nofun⟩
        · obtain ⟨some, rfl⟩ := mem_held.mp back
          exact ⟨by decide, nofun, fun _ => some, nofun⟩
      | motor => cases mem
      | inverter =>
        obtain ⟨timed, rfl⟩ := mem_slowed.mp mem
        exact ⟨by decide, nofun, nofun, fun _ => timed⟩
      | servo =>
        have plain : ∀ role ∈ [CylinderRole.servoStart, .brakeRelease],
            role ∈ DriveClass.servo.roles ∧
              role ∉ [CylinderRole.retainGo, .retainBack, .decelerate] := by decide
        exact uses_of_mem (plain role mem).1 (plain role mem).2
  · intro uses
    refine (List.mem_append.mp uses.mem).imp_right fun mem => ?_
    cases k with
    | singleValve =>
      have only : role = .retainGo := List.mem_singleton.mp mem
      exact mem_held.mpr ⟨uses.heldGo only, only⟩
    | doubleValve | flowValve =>
      have either : role = .retainGo ∨ role = .retainBack := by simpa using mem
      rcases either with go | back
      · exact List.mem_append_left _ (mem_held.mpr ⟨uses.heldGo go, go⟩)
      · exact List.mem_append_right _ (mem_held.mpr ⟨uses.heldBack back, back⟩)
    | motor => cases mem
    | inverter =>
      have only : role = .decelerate := List.mem_singleton.mp mem
      exact mem_slowed.mpr ⟨uses.slowed only, only⟩
    | servo => exact mem

end Drive

end Rungs
