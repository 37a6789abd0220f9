import Rungs.Snapshot

/-! Rendering, splitting and moving on of devices fit together (`Device.rendering_consistent`). A
device is rendered also where its number leaves 32 bits; such a device is neither split again nor
reached by moving on. Moving on gives the decimal text of the new number, whatever zeros the old one
began with, so two moves are one. -/

namespace Rungs

/-- The decimal text of a number: digits that denote it, without a zero in front. -/
structure Text.IsDecimal (cs : List Char) (n : Nat) : Prop where
  denotes : Denotes cs n
  leading : cs.head? = some '0' → cs = ['0']

theorem Text.isDecimal_toDigits (n : Nat) : IsDecimal (Nat.toDigits 10 n) n where
  denotes := natural?_eq_some_iff.mp (natural?_toDigits n)
  leading := toDigits_of_leading_zero n

namespace Device

theorem toNat_add_of_fits {p q : UInt32} (fits : p.toNat + q.toNat < UInt32.size) :
    (p + q).toNat = p.toNat + q.toNat := by
  rw [UInt32.toNat_add]
  exact Nat.mod_eq_of_lt fits

/-- Splitting and rendering with a number that fits come back to the label and the number. -/
theorem split?_word {label : String} (proper : IsLabel label) (number : UInt32) :
    split? (numbered label number.toNat) = some (label, number) := by
  rw [split?_numbered proper, if_pos number.toNat_lt, UInt32.ofNat_toNat]

/-- Only what can be split can be moved on. -/
theorem offset?_of_not_split? {device : String} (whole : split? device = none)
    (distance : UInt32) : offset? device distance = none := by
  rw [offset?, whole, Option.bind_none]

theorem offset?_of_split? {device label : String} {number : UInt32}
    (parts : split? device = some (label, number)) (distance : UInt32) :
    offset? device distance =
      if number.toNat + distance.toNat < UInt32.size
      then some (numbered label (number.toNat + distance.toNat)) else none := by
  rw [offset?, parts, Option.bind_some]

theorem offset?_numbered {label : String} (proper : IsLabel label) (number distance : UInt32) :
    offset? (numbered label number.toNat) distance =
      if number.toNat + distance.toNat < UInt32.size
      then some (numbered label (number.toNat + distance.toNat)) else none :=
  offset?_of_split? (split?_word proper number) distance

/-- Two moves are one, also where they lead too far. -/
theorem offset?_offset? (device : String) {p q : UInt32}
    (fits : p.toNat + q.toNat < UInt32.size) :
    ((offset? device p).bind fun moved => offset? moved q) = offset? device (p + q) := by
  cases parts : split? device with
  | none => rw [offset?_of_not_split? parts, offset?_of_not_split? parts, Option.bind_none]
  | some part =>
    obtain ⟨label, number⟩ := part
    have proper : IsLabel label := (split?_eq_some_iff.mp parts).1
    rw [offset?_of_split? parts, offset?_of_split? parts, toNat_add_of_fits fits]
    by_cases near : number.toNat + p.toNat < UInt32.size
    · -- The device in between has a number again, from which the second move starts.
      have second := offset?_numbered proper (number + p) q
      rw [toNat_add_of_fits near] at second
      rw [if_pos near, Option.bind_some, second, Nat.add_assoc]
    · have far : ¬ number.toNat + (p.toNat + q.toNat) < UInt32.size := by omega
      rw [if_neg near, if_neg far, Option.bind_none]

end Device

namespace Allocation

variable {a : Allocation} (proper : Device.IsLabel a.label) {k : UInt32}

include proper in
theorem split?_device (fits : a.start.toNat + k.toNat < UInt32.size) :
    Device.split? (a.device k.toNat) = some (a.label, a.start + k) := by
  rw [device, ← Device.toNat_add_of_fits fits]
  exact Device.split?_word proper (a.start + k)

include proper in
/-- From the first device of an allocation every other one is reached that has a number. -/
theorem offset?_device_zero : Device.offset? (a.device 0) k =
    if a.start.toNat + k.toNat < UInt32.size then some (a.device k.toNat) else none := by
  rw [device, Nat.add_zero, Device.offset?_numbered proper]
  rfl

end Allocation

open Device in
/-- Devices of an allocation with a proper label are told apart, split and moved on to as long as
their numbers fit in 32 bits; and whatever the device is, splitting it finds the one way to read it
as a label and a number, and moving on twice is moving on once. -/
theorem Device.rendering_consistent :
    (∀ a : Allocation, IsLabel a.label → ∀ k : UInt32,
      (∃ digits, Text.IsDecimal digits (a.start.toNat + k.toNat) ∧
        (a.device k.toNat).toList = a.label.toList ++ digits) ∧
      (∀ j : UInt32, a.device j.toNat = a.device k.toNat → j = k) ∧
      (a.start.toNat + k.toNat < UInt32.size →
        split? (a.device k.toNat) = some (a.label, a.start + k) ∧
        (a.start + k).toNat = a.start.toNat + k.toNat ∧
        offset? (a.device 0) k = some (a.device k.toNat)) ∧
      (UInt32.size ≤ a.start.toNat + k.toNat →
        split? (a.device k.toNat) = none ∧ offset? (a.device 0) k = none)) ∧
    (∀ (device label : String) (number : UInt32),
      split? device = some (label, number) ↔ IsLabel label ∧ Names device label number.toNat) ∧
    (∀ (device : String) (p q : UInt32), p.toNat + q.toNat < UInt32.size →
      ((offset? device p).bind fun moved => offset? moved q) = offset? device (p + q)) := by
  refine ⟨fun a proper k => ⟨⟨_, Text.isDecimal_toDigits _, toList_numbered a.label _⟩, ?_, ?_, ?_⟩,
    fun device label number => split?_eq_some_iff, fun device p q => offset?_offset? device⟩
  · intro j same
    exact UInt32.toNat_inj.mp (a.device_injective same)
  · intro fits
    refine ⟨Allocation.split?_device proper fits, toNat_add_of_fits fits, ?_⟩
    rw [Allocation.offset?_device_zero proper, if_pos fits]
  · intro far
    rw [Allocation.offset?_device_zero proper, if_neg (Nat.not_lt.mpr far), Allocation.device,
      split?_numbered proper, if_neg (Nat.not_lt.mpr far)]
    exact ⟨rfl, rfl⟩

/-- The last device of all and the one behind it, and a device with zeros in front of its number. -/
theorem Device.rendering_consistent_edges :
    let a : Allocation := ⟨.detail, 1, "Mü", 4294967290, 8⟩
    (IsLabel a.label ∧ a.start.toNat + (5 : UInt32).toNat < UInt32.size ∧
      split? (a.device 5) = some ("Mü", 4294967295) ∧ offset? (a.device 0) 5 = some (a.device 5)) ∧
    (UInt32.size ≤ a.start.toNat + (6 : UInt32).toNat ∧ split? (a.device 6) = none) ∧
    (1 : UInt32).toNat + (2 : UInt32).toNat < UInt32.size ∧
      ((offset? "D007" 1).bind fun moved => offset? moved 2) = offset? "D007" 3 := by
  intro a
  have proper : IsLabel a.label := by simp [IsLabel, a]
  have inside : a.start.toNat + (5 : UInt32).toNat < UInt32.size := by decide
  have outside : UInt32.size ≤ a.start.toNat + (6 : UInt32).toNat := by decide
  have small : (1 : UInt32).toNat + (2 : UInt32).toNat < UInt32.size := by decide
  obtain ⟨devices, -, moves⟩ := rendering_consistent
  obtain ⟨-, -, last, -⟩ := devices a proper 5
  obtain ⟨-, -, -, behind⟩ := devices a proper 6
  obtain ⟨split, -, reached⟩ := last inside
  exact ⟨⟨proper, inside, split, reached⟩, ⟨outside, (behind outside).1⟩, small,
    moves "D007" 1 2 small⟩

end Rungs
