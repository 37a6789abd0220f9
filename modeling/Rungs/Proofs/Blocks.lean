import Rungs.Proofs.Lookup

/-! Which blocks are handed out. An entity gets the first allocation that is listed for it, if every
role has its bit in the allocation and in 32 bits (`block_exact`). The check for 32 bits asks for
the number behind the last bit, too: an allocation whose last needed bit is the very last device is
refused, although it hosts all roles (`block_refuses_last_device`). -/

namespace Rungs

variable {σ ρ : Type} [Role ρ]

namespace Allocation

/-- Every role has its bit in the allocation, and the bit's number fits in 32 bits. -/
def Hosts (a : Allocation) (roles : List ρ) : Prop :=
  ∀ role ∈ roles, Role.offset role < a.count.toNat ∧
    a.start.toNat + Role.offset role < UInt32.size

/-- No role's bit is the last device of all. -/
def EndsBeforeLast (a : Allocation) (roles : List ρ) : Prop :=
  ∀ role ∈ roles, a.start.toNat + Role.offset role ≠ UInt32.size - 1

theorem addressable_requiredBits_iff {a : Allocation} {roles : List ρ} :
    a.addressable (requiredBits roles) = true ↔
      ∀ role ∈ roles, a.start.toNat + Role.offset role + 1 < UInt32.size := by
  have small : a.start.toNat < UInt32.size := a.start.toNat_lt
  have room : requiredBits roles ≤ UInt32.size - 1 - a.start.toNat ↔
      ∀ role ∈ roles, Role.offset role < UInt32.size - 1 - a.start.toNat := requiredBits_le_iff
  rw [addressable, decide_eq_true_eq]
  constructor
  · intro fits role mem
    have := room.mp (by omega) role mem
    omega
  · intro fits
    have := room.mpr fun role mem => by
      have := fits role mem
      omega
    omega

/-- What is asked of an allocation before it is handed out. -/
theorem usable_iff {a : Allocation} {roles : List ρ} :
    requiredBits roles ≤ a.count.toNat ∧ a.addressable (requiredBits roles) = true ↔
      a.Hosts roles ∧ a.EndsBeforeLast roles := by
  rw [requiredBits_le_iff, addressable_requiredBits_iff]
  constructor
  · rintro ⟨long, fits⟩
    refine ⟨fun role mem => ⟨long role mem, ?_⟩, fun role mem last => ?_⟩
    · exact Nat.lt_of_succ_lt (fits role mem)
    · have := fits role mem
      omega
  · rintro ⟨hosts, before⟩
    refine ⟨fun role mem => (hosts role mem).1, fun role mem => ?_⟩
    have := (hosts role mem).2
    have := before role mem
    omega

end Allocation

namespace Context

variable (c : Context σ) (owner : Owner)

/-- The allocation that is listed first for the owner. -/
def Owns (a : Allocation) : Prop :=
  FirstOf (fun a : Allocation => a.kind = owner.kind ∧ a.recordId = owner.recordId)
    c.snapshot.allocations a

theorem owns_iff {a : Allocation} : c.Owns owner a ↔
    c.snapshot.allocation? owner.kind owner.recordId = some a :=
  Snapshot.allocation?_eq_some_iff.symm

variable (roles : List ρ)

theorem block_of_usable {a : Allocation} (owns : c.Owns owner a) (hosts : a.Hosts roles)
    (before : a.EndsBeforeLast roles) : c.block owner roles = pure ⟨a⟩ := by
  obtain ⟨long, addressable⟩ := Allocation.usable_iff.mpr ⟨hosts, before⟩
  unfold block
  rw [(c.owns_iff owner).mp owns]
  dsimp only
  rw [if_neg (Nat.not_lt.mpr long), if_pos addressable]

/-- Either the block is the owner's own and every role can use it, and nothing else happens, or
nothing happens but the one critical diagnostic. -/
theorem block_exact (m : σ) :
    ((∃ b, ((c.block owner roles).run m).result = .ok b) ↔
      ∃ a, c.Owns owner a ∧ a.Hosts roles ∧ a.EndsBeforeLast roles) ∧
    (∀ b, ((c.block owner roles).run m).result = .ok b →
      (c.block owner roles).run m = { result := .ok b, memory := m } ∧
      c.Owns owner b.allocation ∧ b.allocation.Hosts roles ∧
      ∀ role : ρ, b.bit role =
        b.allocation.label ++ toString (b.allocation.start.toNat + Role.offset role)) ∧
    ∀ f, ((c.block owner roles).run m).result = .error f →
      (c.block owner roles).run m = { result := .error f, memory := m } ∧
      ((c.block owner roles).run m).diagnostics owner = [owner.critical f] := by
  rcases c.block_cases owner roles with ⟨f, halts⟩ | ⟨b, returns, fits⟩
  · rw [halts]
    refine ⟨⟨fun ⟨b, ok⟩ => ?_, fun ⟨a, owns, hosts, before⟩ => ⟨⟨a⟩, ?_⟩⟩, fun b ok => ?_,
      fun f' error => ?_⟩
    · cases ok
    · rw [← halts, c.block_of_usable owner roles owns hosts before]
      rfl
    · cases ok
    · cases error
      exact ⟨rfl, rfl⟩
  · have owns : c.Owns owner b.allocation :=
      (c.owns_iff owner).mpr (Snapshot.block?_eq_some_iff.mp fits.found)
    obtain ⟨hosts, before⟩ := Allocation.usable_iff.mp ⟨fits.long, fits.addressable⟩
    rw [returns]
    refine ⟨⟨fun _ => ⟨b.allocation, owns, hosts, before⟩, fun _ => ⟨b, rfl⟩⟩, fun b' ok => ?_,
      fun f error => ?_⟩
    · cases ok
      exact ⟨rfl, owns, hosts, fun _ => rfl⟩
    · cases error

/-- A detail whose three bits are the last three devices of all. -/
private def cornered : Context Unit where
  settings := {}
  resolver := .rangeOnly []
  conditionIds := fun _ _ _ => []
  snapshot := { allocations := [⟨.detail, 1, "M", 4294967293, 3⟩] }

/-- The allocation hosts every role of the detail and is refused. -/
theorem block_refuses_last_device :
    ¬((∃ b, ((cornered.block ⟨.detail, 1, "D1"⟩ DetailRole.all).run ()).result = .ok b) ↔
      ∃ a, cornered.Owns ⟨.detail, 1, "D1"⟩ a ∧ a.Hosts DetailRole.all) := by
  have owns : cornered.Owns ⟨.detail, 1, "D1"⟩ ⟨.detail, 1, "M", 4294967293, 3⟩ :=
    (cornered.owns_iff _).mpr (by decide)
  have hosts : (⟨.detail, 1, "M", 4294967293, 3⟩ : Allocation).Hosts DetailRole.all := by
    unfold Allocation.Hosts
    decide
  intro claimed
  obtain ⟨b, accepted⟩ := claimed.mpr ⟨_, owns, hosts⟩
  have refused : ((cornered.block ⟨.detail, 1, "D1"⟩ DetailRole.all).run ()).result =
      .error (.allocationOverflows ⟨.detail, 1, "M", 4294967293, 3⟩ 3) := rfl
  rw [refused] at accepted
  cases accepted

end Context

end Rungs
