import Agenda.Proofs.Text.Digits
import Agenda.Time.Rfc3339

/-!
The text of an instant is read back as that instant: every year, every fraction of a second and
leap seconds.
-/

namespace Agenda

namespace Text

theorem isBlank_of_isDigit {character : Char} (digit : isDigit character = true) :
    isBlank character = false := by
  simp only [isDigit, Bool.and_eq_true, decide_eq_true_eq, Char.le_def, UInt32.le_iff_toNat_le]
    at digit
  have lower : 48 ≤ character.toNat := digit.1
  have upper : character.toNat ≤ 57 := digit.2
  simp only [isBlank, Bool.or_eq_false_iff, Bool.and_eq_false_iff, decide_eq_false_iff_not,
    beq_eq_false_iff_ne]
  omega

theorem skipBlanks_cons {character : Char} (notBlank : isBlank character = false)
    (rest : List Char) : skipBlanks (character :: rest) = character :: rest := by
  simp [skipBlanks, notBlank]

theorem skipBlanks_digits {digits : List Char} (nonempty : digits ≠ [])
    (all : ∀ digit ∈ digits, isDigit digit = true) (rest : List Char) :
    skipBlanks (digits ++ rest) = digits ++ rest := by
  obtain ⟨first, others, rfl⟩ := List.exists_cons_of_ne_nil nonempty
  exact skipBlanks_cons (isBlank_of_isDigit (all first List.mem_cons_self)) _

end Text

namespace Rfc3339

theorem readDigits_append (most : Nat) {digits rest : List Char} (nonempty : digits ≠ [])
    (all : ∀ digit ∈ digits, Text.isDigit digit = true) (fits : digits.length ≤ most)
    (ends : digits.length = most ∨ ∀ next ∈ rest.head?, Text.isDigit next = false) :
    readDigits most (digits ++ rest) = some (digits, rest) := by
  have taken : ((digits ++ rest).take most).takeWhile Text.isDigit = digits := by
    rw [List.take_append, List.take_of_length_le fits, List.takeWhile_append_of_pos all]
    rcases ends with full | stops
    · simp [full]
    · cases rest with
      | nil => simp
      | cons next others =>
          cases most - digits.length with
          | zero => simp
          | succ count => simp [stops next rfl]
  simp only [readDigits, taken, List.isEmpty_iff, nonempty, if_false, List.drop_left]

theorem readShort_padded {value : Nat} (bound : value < 100) (rest : List Char) :
    readShort (Text.padded 2 value ++ rest) = some (value, rest) := by
  have length : (Text.padded 2 value).length = 2 := Text.length_padded (by omega) bound
  simp only [readShort, Text.skipBlanks_digits (Text.padded_ne_nil 2 value)
    (fun _ => Text.isDigit_of_mem_padded)]
  rw [readDigits_append _ (Text.padded_ne_nil 2 value) (fun _ => Text.isDigit_of_mem_padded)
    (by omega) (Or.inl length)]
  simp

theorem readMark_cons {mark : Char} (notBlank : Text.isBlank mark = false) (rest : List Char) :
    readMark mark (mark :: rest) = some rest := by
  simp [readMark, Text.skipBlanks_cons notBlank]

theorem readYear_yearChars (year : Int) (rest : List Char) :
    readYear (yearChars year ++ '-' :: rest) = some (year, '-' :: rest) := by
  have nonempty := Text.padded_ne_nil 4 year.natAbs
  have all : ∀ digit ∈ Text.padded 4 year.natAbs, Text.isDigit digit = true :=
    fun _ => Text.isDigit_of_mem_padded
  have ends : ∀ next ∈ ('-' :: rest).head?, Text.isDigit next = false := by
    rintro next ⟨⟩
    rfl
  have signed := readDigits_append (Text.padded 4 year.natAbs ++ '-' :: rest).length
    nonempty all (by simp) (Or.inr ends)
  by_cases negative : year < 0
  · simp only [yearChars, negative, if_true, List.cons_append, readYear,
      Text.skipBlanks_cons (rfl : Text.isBlank '-' = false), signed, Option.bind_eq_bind, Option.bind_some,
      Text.digitsValue_padded]
    congr 2
    omega
  by_cases long : 9999 < year
  · simp only [yearChars, negative, long, if_true, if_false, List.cons_append, readYear,
      Text.skipBlanks_cons (rfl : Text.isBlank '+' = false), signed, Option.bind_eq_bind, Option.bind_some,
      Text.digitsValue_padded]
    congr 2
    omega
  · have four : (Text.padded 4 year.natAbs).length = 4 := Text.length_padded (by omega) (by omega)
    have unsigned := readDigits_append 4 nonempty all (by omega) (Or.inr ends)
    obtain ⟨first, others, digits⟩ := List.exists_cons_of_ne_nil nonempty
    have firstDigit : Text.isDigit first = true := all first (by rw [digits]; simp)
    have notMinus : first ≠ '-' := by
      rintro rfl
      cases firstDigit
    have notPlus : first ≠ '+' := by
      rintro rfl
      cases firstDigit
    simp only [yearChars, negative, long, if_false, readYear,
      Text.skipBlanks_digits nonempty all]
    rw [digits, List.cons_append] at unsigned ⊢
    split
    · rename_i _ _ text
      exact absurd (List.cons.inj text).1 notMinus
    · rename_i _ _ text
      exact absurd (List.cons.inj text).1 notPlus
    · rw [unsigned, ← digits]
      simp only [Option.bind_eq_bind, Option.bind_some, Text.digitsValue_padded]
      congr 2
      omega

theorem readDate_dateChars (date : Date) (rest : List Char) :
    readDate (dateChars date ++ 'T' :: rest) = some (date, 'T' :: rest) := by
  obtain ⟨year, month, day, exists_date⟩ := date
  have monthBound : month < 100 := by
    have := exists_date.2.2.2.1
    omega
  have dayBound : day < 100 := by
    have inMonth := exists_date.2.2.2.2.2
    unfold Date.daysInMonth at inMonth
    split at inMonth
    · split at inMonth <;> omega
    · split at inMonth <;> omega
  have minus : Text.isBlank '-' = false := rfl
  simp only [readDate, dateChars, List.append_assoc, List.cons_append, readYear_yearChars,
    Option.bind_eq_bind, Option.bind_some, readMark_cons minus, readShort_padded monthBound,
    readShort_padded dayBound, Date.of?, exists_date, dif_pos]

theorem readFraction_fractionChars {nano : Nat} (bound : nano < 1000000000) (rest : List Char) :
    readFraction (fractionChars nano ++ 'Z' :: rest) = some (nano, 'Z' :: rest) := by
  have ends : ∀ next ∈ ('Z' :: rest).head?, Text.isDigit next = false := by
    rintro next ⟨⟩
    rfl
  have stays : ('Z' :: rest).dropWhile Text.isDigit = 'Z' :: rest := by
    simp [ends 'Z' rfl]
  have read {width value : Nat} (positive : 0 < width) (short : width ≤ 9)
      (fits : value < 10 ^ width) :
      readFraction ('.' :: Text.padded width value ++ 'Z' :: rest) =
        some (value * 10 ^ (9 - width), 'Z' :: rest) := by
    have length : (Text.padded width value).length = width := Text.length_padded positive fits
    simp only [readFraction, List.cons_append,
      readDigits_append 9 (Text.padded_ne_nil width value) (fun _ => Text.isDigit_of_mem_padded)
        (by omega) (Or.inr ends), Option.bind_eq_bind, Option.bind_some,
      Text.digitsValue_padded, length, stays]
    rfl
  unfold fractionChars
  split
  · rename_i none
    subst nano
    rfl
  split
  · rw [read (by omega) (by omega) (by omega)]
    congr 2
    omega
  split
  · rw [read (by omega) (by omega) (by omega)]
    congr 2
    omega
  · rw [read (by omega) (by omega) (by omega)]
    simp

/-- A leap second is written as the second 60 and read as the second half of the doubled range. -/
theorem readTime_timeChars (instant : Instant) (rest : List Char) :
    readTime (timeChars instant ++ 'Z' :: rest) =
      some ((instant.second, instant.nano), 'Z' :: rest) := by
  obtain ⟨date, second, nano, second_lt, nano_lt⟩ := instant
  have colon : Text.isBlank ':' = false := rfl
  have hour : second / 3600 < 100 := by omega
  have minute : second / 60 % 60 < 100 := by omega
  have leapBound : second % 60 + (if 1000000000 ≤ nano then 1 else 0) < 100 := by
    split <;> omega
  simp only [readTime, timeChars, Instant.isLeapSecond, decide_eq_true_eq, List.append_assoc,
    List.cons_append, readShort_padded hour, readShort_padded minute, readShort_padded leapBound,
    readMark_cons colon, readFraction_fractionChars (Nat.mod_lt nano (by omega)),
    Option.bind_eq_bind, Option.bind_some]
  by_cases leap : 1000000000 ≤ nano
  · simp only [leap, if_true]
    rw [if_pos (by omega), if_pos (by omega)]
    congr 3 <;> omega
  · simp only [leap, if_false]
    rw [if_pos (by omega), if_neg (by omega)]
    congr 3 <;> omega

theorem read_chars (instant : Instant) : read (chars instant) = some instant := by
  have universal : toUniversal instant.date instant.second instant.nano 0 = some instant := by
    have day : ((instant.second : Int) - 0) / 86400 = 0 := by
      have := instant.second_lt
      omega
    have second : (((instant.second : Int) - 0) % 86400).toNat = instant.second := by
      have := instant.second_lt
      omega
    simp only [toUniversal, day, second, Date.addDays?, if_true, Option.bind_eq_bind,
      Option.bind_some, Instant.of?, instant.second_lt, instant.nano_lt, dif_pos]
  have offset : readOffset ['Z'] = some (0, []) := by decide
  simp only [read, chars, readDate_dateChars, Option.bind_eq_bind, Option.bind_some,
    readTime_timeChars, offset]
  simpa [Text.skipBlanks] using universal

end Rfc3339

namespace Instant

@[simp] theorem ofText?_text (instant : Instant) : ofText? instant.text = some instant := by
  rw [ofText?, text, String.toList_ofList, Rfc3339.read_chars]

theorem text_injective {left right : Instant} (same : left.text = right.text) : left = right := by
  have read := ofText?_text left
  rw [same, ofText?_text] at read
  exact (Option.some.inj read).symm

end Instant

end Agenda
