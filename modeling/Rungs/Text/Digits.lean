/-! Decimal numbers in names: what a run of ASCII digits denotes, and that the decimal text of a
number is such a run, denotes it (`natural?_toDigits`) and has no zero in front
(`toDigits_of_leading_zero`). -/

namespace Rungs.Text

/-- The value of one or more ASCII digits. Leading zeros count for nothing. -/
def natural? (cs : List Char) : Option Nat :=
  if cs ≠ [] ∧ cs.all Char.isDigit then some (Nat.ofDigitChars 10 cs 0) else none

/-- The value of one or more ASCII digits, if it fits in 32 bits. -/
def word? (cs : List Char) : Option UInt32 :=
  (natural? cs).bind fun n => if n < UInt32.size then some (UInt32.ofNat n) else none

/-- One or more ASCII digits whose value is the number. -/
def Denotes (cs : List Char) (n : Nat) : Prop :=
  cs ≠ [] ∧ (∀ c ∈ cs, c.isDigit = true) ∧ Nat.ofDigitChars 10 cs 0 = n

theorem natural?_eq_some_iff {cs : List Char} {n : Nat} :
    natural? cs = some n ↔ Denotes cs n := by
  rw [natural?, Option.ite_none_right_eq_some, Option.some.injEq, List.all_eq_true, and_assoc]
  rfl

/-- Digits that denote more than 32 bits hold are no word. -/
theorem word?_eq_some_iff {cs : List Char} {w : UInt32} :
    word? cs = some w ↔ Denotes cs w.toNat := by
  rw [word?, Option.bind_eq_some_iff]
  constructor
  · rintro ⟨n, value, fits⟩
    rw [Option.ite_none_right_eq_some, Option.some.injEq] at fits
    obtain ⟨small, rfl⟩ := fits
    rw [UInt32.toNat_ofNat_of_lt' small]
    exact natural?_eq_some_iff.mp value
  · intro denotes
    refine ⟨w.toNat, natural?_eq_some_iff.mpr denotes, ?_⟩
    rw [if_pos w.toNat_lt, UInt32.ofNat_toNat]

theorem toDigits_of_leading_zero (n : Nat) (zero : (Nat.toDigits 10 n).head? = some '0') :
    Nat.toDigits 10 n = ['0'] := by
  induction n using Nat.strongRecOn with
  | ind n ih =>
    by_cases small : n < 10
    · rw [Nat.toDigits_of_lt_base small] at zero ⊢
      simpa using zero
    · have step := Nat.toDigits_of_base_le (b := 10) (by decide) (Nat.le_of_not_lt small)
      obtain ⟨d, others, shape⟩ :=
        List.exists_cons_of_ne_nil (Nat.toDigits_ne_nil (b := 10) (n := n / 10))
      have zero' : (Nat.toDigits 10 (n / 10)).head? = some '0' := by
        rw [step, shape] at zero
        simpa [shape] using zero
      have value := Nat.ofDigitChars_toDigits (b := 10) (n := n / 10) (by decide) (by decide)
      rw [ih (n / 10) (by omega) zero'] at value
      have tenth : 0 = n / 10 := value
      omega

theorem natural?_toDigits (n : Nat) : natural? (Nat.toDigits 10 n) = some n := by
  have digits : (Nat.toDigits 10 n).all Char.isDigit = true :=
    List.all_eq_true.mpr fun c mem => Nat.isDigit_of_mem_toDigits (by decide) (by decide) mem
  have nonempty : Nat.toDigits 10 n ≠ [] := Nat.toDigits_ne_nil
  simp [natural?, digits, nonempty]

theorem word?_toDigits (n : Nat) :
    word? (Nat.toDigits 10 n) = if n < UInt32.size then some (UInt32.ofNat n) else none := by
  simp [word?, natural?_toDigits]

end Rungs.Text
