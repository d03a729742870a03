import Agenda.Text.Digit
import Mathlib

/-!
Digits read back: what a decimal text says of its number, and what its characters can be. The texts
of two different whole numbers differ.
-/

namespace Agenda.Text

theorem isDigit_eq (character : Char) : isDigit character = character.isDigit := by
  rfl

theorem isDigit_of_mem_toDigits {value : Nat} {digit : Char}
    (member : digit ∈ Nat.toDigits 10 value) : isDigit digit = true := by
  rw [isDigit_eq]
  exact Nat.isDigit_of_mem_toDigits (by omega) (by omega) member

theorem digitsValue_eq_ofDigitChars (digits : List Char) :
    digitsValue digits = Nat.ofDigitChars 10 digits 0 := by
  simp only [digitsValue, Nat.ofDigitChars_eq_foldl, digitValue, Nat.mul_comm 10]
  rfl

@[simp] theorem digitsValue_toDigits (value : Nat) :
    digitsValue (Nat.toDigits 10 value) = value := by
  rw [digitsValue_eq_ofDigitChars, Nat.ofDigitChars_ten_toDigits]

theorem eq_zero_of_head?_toDigits {value : Nat}
    (leading : (Nat.toDigits 10 value).head? = some '0') : value = 0 := by
  induction value using Nat.strongRecOn with
  | ind value ih =>
      by_cases small : value < 10
      · rw [Nat.toDigits_of_lt_base small] at leading
        have single : ∀ digit < 10, Nat.digitChar digit = '0' → digit = 0 := by decide
        exact single value small (Option.some.inj leading)
      · rw [Nat.toDigits_of_base_le (by omega) (by omega),
          List.head?_append_of_ne_nil _ Nat.toDigits_ne_nil] at leading
        have shorter := ih (value / 10) (by omega) leading
        omega

theorem isDigit_of_mem_padded {width value : Nat} {digit : Char}
    (member : digit ∈ padded width value) : isDigit digit = true := by
  simp only [padded, List.mem_append, List.mem_replicate] at member
  rcases member with ⟨_, rfl⟩ | member
  · rfl
  · exact isDigit_of_mem_toDigits member

@[simp] theorem digitsValue_padded (width value : Nat) :
    digitsValue (padded width value) = value := by
  rw [digitsValue_eq_ofDigitChars, padded, Nat.ofDigitChars_append,
    Nat.ofDigitChars_replicate_zero, Nat.mul_zero, Nat.ofDigitChars_ten_toDigits]

theorem length_padded {width value : Nat} (positive : 0 < width) (bound : value < 10 ^ width) :
    (padded width value).length = width := by
  have digits := (Nat.length_toDigits_le_iff (by omega) positive).mpr bound
  simp only [padded, List.length_append, List.length_replicate]
  omega

theorem padded_ne_nil (width value : Nat) : padded width value ≠ [] := by
  simp [padded, Nat.toDigits_ne_nil]

theorem toList_toString_int (value : Int) :
    (toString value).toList =
      (if value < 0 then ['-'] else []) ++ Nat.toDigits 10 value.natAbs := by
  cases value with
  | ofNat number =>
      have notNegative : ¬ Int.ofNat number < 0 := by simp
      rw [if_neg notNegative]
      exact Nat.toList_repr
  | negSucc number =>
      rw [if_pos (Int.negSucc_lt_zero number)]
      change ("-" ++ Nat.repr number.succ).toList = _
      simp [String.toList_append]

theorem mem_toString_int {value : Int} {character : Char}
    (member : character ∈ (toString value).toList) :
    character = '-' ∨ isDigit character = true := by
  rw [toList_toString_int, List.mem_append] at member
  rcases member with sign | digit
  · left
    split at sign <;> simp_all
  · exact Or.inr (isDigit_of_mem_toDigits digit)

theorem toString_int_ne_nil (value : Int) : (toString value).toList ≠ [] := by
  rw [toList_toString_int]
  exact List.append_ne_nil_of_right_ne_nil _ Nat.toDigits_ne_nil

theorem hexValue?_hexDigit : ∀ {value : Nat}, value < 16 → hexValue? (hexDigit value) = some value := by
  decide

theorem hexDigit_injective {left right : Nat} (leftBound : left < 16) (rightBound : right < 16)
    (same : hexDigit left = hexDigit right) : left = right := by
  have value := hexValue?_hexDigit leftBound
  rw [same, hexValue?_hexDigit rightBound] at value
  exact (Option.some.inj value).symm

end Agenda.Text
