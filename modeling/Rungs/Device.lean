import Rungs.Text.Digits

/-! Device names of a programmable controller: a label without digits and a number, as in `M1005`.
Constants and timers are named in the same way. Rendering a numbered device and splitting it again
are inverse as long as the number fits in 32 bits (`split?_numbered`). -/

namespace Rungs.Device

def numbered (label : String) (number : Nat) : String := label ++ toString number

/-- A constant operand. -/
def constant (value : Int) : String := "K" ++ toString value

def timerLabel : Char := 'T'

def timer (number : UInt32) : String := numbered timerLabel.toString number.toNat

/-- Label and number of a device. The label is not empty and holds no digit; after it stand digits
only, and their value fits in 32 bits. -/
def split? (device : String) : Option (String × UInt32) :=
  let label := device.toList.takeWhile fun c => !c.isDigit
  let number := device.toList.dropWhile fun c => !c.isDigit
  if label = [] then none
  else (Text.word? number).map fun n => (String.ofList label, n)

/-- The device `distance` numbers further under the same label, unless the number leaves 32 bits. -/
def offset? (device : String) (distance : UInt32) : Option String :=
  (split? device).bind fun (label, number) =>
    let moved := number.toNat + distance.toNat
    if moved < UInt32.size then some (numbered label moved) else none

/-- The timer label and digits after it: such a name is a contact, not a symbol to look up. -/
def isTimerReference (name : String) : Bool :=
  match name.toList with
  | c :: digits => c == timerLabel && (Text.natural? digits).isSome
  | [] => false

/-- What an allocation's label has to be for its devices to be recognised again. -/
def IsLabel (label : String) : Prop := label ≠ "" ∧ ∀ c ∈ label.toList, c.isDigit = false

theorem toList_numbered (label : String) (number : Nat) :
    (numbered label number).toList = label.toList ++ Nat.toDigits 10 number := by
  simp [numbered]

theorem numbered_injective {label : String} {i j : Nat}
    (h : numbered label i = numbered label j) : i = j := by
  have lists := congrArg String.toList h
  simp only [toList_numbered] at lists
  have digits := congrArg Text.natural? (List.append_cancel_left lists)
  simpa [Text.natural?_toDigits] using digits

private theorem span_label {label digits : List Char} (free : ∀ c ∈ label, c.isDigit = false)
    (all : digits.all Char.isDigit = true) :
    (label ++ digits).takeWhile (fun c => !c.isDigit) = label ∧
    (label ++ digits).dropWhile (fun c => !c.isDigit) = digits := by
  induction label with
  | nil =>
    cases digits with
    | nil => simp
    | cons d ds =>
      have : d.isDigit = true := by simp_all
      simp [this]
  | cons c cs ih =>
    have := ih fun d mem => free d (List.mem_cons_of_mem _ mem)
    simp [free c List.mem_cons_self, this]

theorem split?_numbered {label : String} (h : IsLabel label) (number : Nat) :
    split? (numbered label number) =
      if number < UInt32.size then some (label, UInt32.ofNat number) else none := by
  have digits : (Nat.toDigits 10 number).all Char.isDigit = true :=
    List.all_eq_true.mpr fun c mem => Nat.isDigit_of_mem_toDigits (by decide) (by decide) mem
  have nonempty : label.toList ≠ [] := by simpa using h.1
  obtain ⟨take, drop⟩ := span_label h.2 digits
  by_cases fits : number < UInt32.size <;>
    simp [split?, toList_numbered, take, drop, nonempty, Text.word?_toDigits, fits]

/-- The device is the label and, after it, digits that denote the number. -/
def Names (device label : String) (number : Nat) : Prop :=
  ∃ digits, Text.Denotes digits number ∧ device.toList = label.toList ++ digits

theorem names_numbered (label : String) (number : Nat) :
    Names (numbered label number) label number :=
  ⟨Nat.toDigits 10 number, Text.natural?_eq_some_iff.mp (Text.natural?_toDigits number),
    toList_numbered label number⟩

/-- Splitting finds every way to read a device as a label and a number, and there is only one. -/
theorem split?_eq_some_iff {device label : String} {number : UInt32} :
    split? device = some (label, number) ↔ IsLabel label ∧ Names device label number.toNat := by
  constructor
  · intro split
    unfold split? at split
    by_cases empty : device.toList.takeWhile (fun c => !c.isDigit) = []
    · simp [empty] at split
    · simp only [if_neg empty, Option.map_eq_some_iff, Prod.mk.injEq] at split
      obtain ⟨_, value, rfl, rfl⟩ := split
      refine ⟨⟨?_, fun c mem => ?_⟩, _, Text.word?_eq_some_iff.mp value, ?_⟩
      · simpa using empty
      · rw [String.toList_ofList] at mem
        simpa using List.all_eq_true.mp List.all_takeWhile c mem
      · rw [String.toList_ofList, List.takeWhile_append_dropWhile]
  · rintro ⟨proper, digits, denotes, text⟩
    have nonempty : label.toList ≠ [] := by simpa using proper.1
    obtain ⟨take, drop⟩ := span_label proper.2 (List.all_eq_true.mpr denotes.2.1)
    simp [split?, text, take, drop, nonempty, Text.word?_eq_some_iff.mpr denotes]

theorem isTimerReference_iff {name : String} :
    isTimerReference name = true ↔ ∃ number, Names name timerLabel.toString number := by
  rw [isTimerReference]
  constructor
  · intro reference
    split at reference
    next c digits text =>
      rw [Bool.and_eq_true, beq_iff_eq, Option.isSome_iff_exists] at reference
      obtain ⟨rfl, number, value⟩ := reference
      exact ⟨number, digits, Text.natural?_eq_some_iff.mp value, by simpa using text⟩
    next => cases reference
  · rintro ⟨number, digits, denotes, text⟩
    have text : name.toList = timerLabel :: digits := by simpa using text
    simp [text, Text.natural?_eq_some_iff.mpr denotes]

/-- No device is further on than itself. -/
theorem ne_of_offset? {device moved : String} {distance : UInt32} (far : 0 < distance.toNat)
    (h : offset? device distance = some moved) : moved ≠ device := by
  intro same
  rw [offset?, Option.bind_eq_some_iff] at h
  obtain ⟨⟨label, number⟩, split, h⟩ := h
  by_cases fits : number.toNat + distance.toNat < UInt32.size
  · simp only [if_pos fits, Option.some.injEq] at h
    rw [← same, ← h, split?_numbered (split?_eq_some_iff.mp split).1, if_pos fits] at split
    have back : UInt32.ofNat (number.toNat + distance.toNat) = number := by simpa using split
    have value := congrArg UInt32.toNat back
    rw [UInt32.toNat_ofNat_of_lt' fits] at value
    omega
  · simp [fits] at h

end Rungs.Device
