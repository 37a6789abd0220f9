import Rungs.Snapshot
import Rungs.Contact

/-! What a snapshot knows about an entity. Where several records share an id, the allocation listed
first and the cylinder, operation or detail listed last are meant. Families of records come out
ordered by sort number, then id, then place in the list (`inOrder_perm`, `inOrder_pairwise`). -/

namespace Rungs

/-- Order by the first number, then by the second. -/
def precedes (a b : Int32 × Int32) : Bool := a.1 < b.1 || (a.1 == b.1 && a.2 ≤ b.2)

theorem precedes_iff {a b : Int32 × Int32} : precedes a b = true ↔
    a.1.toInt < b.1.toInt ∨ a.1.toInt = b.1.toInt ∧ a.2.toInt ≤ b.2.toInt := by
  simp [precedes, Int32.lt_iff_toInt_lt, Int32.le_iff_toInt_le, Int32.toInt_inj]

theorem precedes_total (a b : Int32 × Int32) : (precedes a b || precedes b a) = true := by
  rw [Bool.or_eq_true, precedes_iff, precedes_iff]
  omega

theorem precedes_trans (a b c : Int32 × Int32) (ab : precedes a b = true)
    (bc : precedes b c = true) : precedes a c = true := by
  rw [precedes_iff] at ab bc ⊢
  omega

/-- Records by ascending key; records with equal keys stay in list order. -/
def inOrder {α : Type} (key : α → Int32 × Int32) (xs : List α) : List α :=
  xs.mergeSort fun a b => precedes (key a) (key b)

theorem inOrder_perm {α : Type} (key : α → Int32 × Int32) (xs : List α) :
    (inOrder key xs).Perm xs := List.mergeSort_perm _ _

theorem inOrder_pairwise {α : Type} (key : α → Int32 × Int32) (xs : List α) :
    (inOrder key xs).Pairwise fun a b => precedes (key a) (key b) = true :=
  List.pairwise_mergeSort (fun a b c => precedes_trans (key a) (key b) (key c))
    (fun a b => precedes_total (key a) (key b)) xs

def Cylinder.sortKey (c : Cylinder) : Int32 × Int32 := (c.sortNumber, c.id)
def Operation.sortKey (o : Operation) : Int32 × Int32 := (o.sortNumber, o.id)
def Process.sortKey (p : Process) : Int32 × Int32 := (p.sortNumber, p.id)
def Detail.sortKey (d : Detail) : Int32 × Int32 := (d.sortNumber, d.id)

/-- The bits of an allocation, addressed by role. -/
structure Block where
  allocation : Allocation
deriving DecidableEq, Repr, Inhabited

namespace Block

variable {ρ : Type} [Role ρ]

def bit (b : Block) (role : ρ) : String := b.allocation.device (Role.offset role)

def contact (b : Block) (role : ρ) : Contact := .plain (b.bit role)

def inverted (b : Block) (role : ρ) : Contact := .inverted (b.bit role)

end Block

/-- The timers of one category that an entity owns: it may have one at most. -/
inductive TimerLookup where
  | missing
  | found (timer : Timer)
  | duplicate (count : Nat)
deriving DecidableEq, Repr, Inhabited

namespace Snapshot

variable (s : Snapshot)

def allocation? (kind : EntityKind) (recordId : Int32) : Option Allocation :=
  s.allocations.find? fun a => a.kind == kind && a.recordId == recordId

/-- The block of an entity, whatever its length. -/
def block? (kind : EntityKind) (recordId : Int32) : Option Block :=
  (s.allocation? kind recordId).map Block.mk

def cylinder? (id : Int32) : Option Cylinder := s.cylinders.reverse.find? (·.id == id)

def operation? (id : Int32) : Option Operation := s.operations.reverse.find? (·.id == id)

def detail? (id : Int32) : Option Detail := s.details.reverse.find? (·.id == id)

def hasProcess (id : Int32) : Bool := s.processes.any (·.id == id)

def sortedCylinders : List Cylinder := inOrder Cylinder.sortKey s.cylinders

def sortedOperations : List Operation := inOrder Operation.sortKey s.operations

def sortedProcesses : List Process := inOrder Process.sortKey s.processes

def operationsOf (cylinderId : Int32) : List Operation :=
  inOrder Operation.sortKey (s.operations.filter (·.cylinderId == cylinderId))

def detailsOfOperation (operationId : Int32) : List Detail :=
  inOrder Detail.sortKey (s.details.filter (·.operationId == some operationId))

def detailsOfProcess (processId : Int32) : List Detail :=
  inOrder Detail.sortKey (s.details.filter (·.processId == processId))

/-- The details whose process the snapshot does not hold. -/
def orphanDetails : List Detail :=
  inOrder Detail.sortKey (s.details.filter fun d => !s.hasProcess d.processId)

def timer (kind : EntityKind) (recordId : Int32) (category : TimerCategory) : TimerLookup :=
  match s.timers.filter fun t => t.categoryId == category.id && t.ownedBy kind recordId with
  | [] => .missing
  | [t] => .found t
  | ts => .duplicate ts.length

/-- A blank speed device counts as none. -/
def speedDevice? (cylinderId : Int32) : Option SpeedDevice :=
  s.speedDevices.find? fun d => d.cylinderId == cylinderId && !Text.isBlankText d.device

def manualControl? (cylinderId : Int32) : Option ManualControl :=
  s.manualControls.find? (·.cylinderId == cylinderId)

end Snapshot

/-- The details that a table of conditions asks an owner to wait for, in table order. -/
def conditionIds (table : List Condition) (kind : ConditionKind) (ownerKind : EntityKind)
    (ownerId : Int32) : List Int32 :=
  (table.filter fun c => c.kind == kind && c.ownerKind == ownerKind && c.ownerId == ownerId).map
    (·.detailId)

end Rungs
