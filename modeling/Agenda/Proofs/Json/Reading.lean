import Agenda.Proofs.Json.RoundTrip
import Agenda.Proofs.Json.Text

/-!
The compact text of a JSON value, read back: it gives the document of the value, as long as its
numbers are integers within 64 bits and its arrays and objects are not nested too deep. So what a
lawful format writes is read from its text as well.
-/

namespace Agenda

namespace Document

def Closes (rest : List Char) : Prop :=
  ∀ character ∈ rest.head?, character = ',' ∨ character = ']' ∨ character = '}'

theorem closes_nil : Closes [] :=
  fun _ none => nomatch none

theorem closes_itemTail (rest : List Json) (after : List Char) :
    Closes (Json.itemTail rest ++ ']' :: after) := by
  cases rest <;> simp [Closes, Json.itemTail]

theorem closes_memberTail (rest : List (String × Json)) (after : List Char) :
    Closes (Json.memberTail rest ++ '}' :: after) := by
  cases rest <;> simp [Closes, Json.memberTail]

section Numbers

theorem le_digitsFrom (digits : List Char) (start : Nat) :
    start ≤ digits.foldl (fun value digit => value * 10 + Text.digitValue digit) start := by
  induction digits generalizing start with
  | nil => exact Nat.le_refl _
  | cons digit rest ih =>
      have further := ih (start * 10 + Text.digitValue digit)
      rw [List.foldl_cons]
      omega

theorem takeDigits_of_le (digits : List Char) (start : Nat)
    (bound : digits.foldl (fun value digit => value * 10 + Text.digitValue digit) start ≤
      significandLimit) :
    takeDigits start digits =
      (digits.foldl (fun value digit => value * 10 + Text.digitValue digit) start, []) := by
  induction digits generalizing start with
  | nil => rfl
  | cons digit rest ih =>
      rw [List.foldl_cons] at bound ⊢
      have grown := le_digitsFrom rest (start * 10 + Text.digitValue digit)
      rw [takeDigits, if_pos (by omega), ih _ bound]

variable {rest : List Char} (closes : Closes rest)
include closes

theorem spanDigits (value : Nat) :
    (Nat.toDigits 10 value ++ rest).takeWhile Text.isDigit = Nat.toDigits 10 value ∧
      (Nat.toDigits 10 value ++ rest).dropWhile Text.isDigit = rest := by
  have digits : ∀ digit ∈ Nat.toDigits 10 value, Text.isDigit digit = true :=
    fun _ => Text.isDigit_of_mem_toDigits
  rw [List.takeWhile_append_of_pos digits, List.dropWhile_append_of_pos digits]
  cases rest with
  | nil => simp
  | cons first others =>
      have stops : Text.isDigit first = false := by
        rcases closes first rfl with rfl | rfl | rfl <;> rfl
      simp [stops]

theorem readExponent_closes (negative : Bool) (whole : List Char) :
    readExponent negative whole none rest = finishNumber ⟨negative, whole, none, none⟩ rest := by
  cases rest with
  | nil => rfl
  | cons first others =>
      have notMark : ¬(first = 'e' ∨ first = 'E') := by
        rcases closes first rfl with rfl | rfl | rfl <;> decide
      rw [readExponent, if_neg notMark]

theorem readNumber_digits (negative : Bool) (value : Nat) :
    readNumber ((if negative then ['-'] else []) ++ (Nat.toDigits 10 value ++ rest)) =
      finishNumber ⟨negative, Nat.toDigits 10 value, none, none⟩ rest := by
  obtain ⟨whole, after⟩ := spanDigits closes value
  obtain ⟨first, others, digits⟩ : ∃ first others, Nat.toDigits 10 value = first :: others :=
    List.exists_cons_of_ne_nil Nat.toDigits_ne_nil
  have notSign : first ≠ '-' := by
    rintro rfl
    cases Text.isDigit_of_mem_toDigits (digits ▸ List.mem_cons_self : '-' ∈ Nat.toDigits 10 value)
  have sign : (((if negative then ['-'] else []) ++ (Nat.toDigits 10 value ++ rest)).head? ==
      some '-') = negative := by
    cases negative <;> simp [digits, notSign]
  have unsigned : (if negative then
      ((if negative then ['-'] else []) ++ (Nat.toDigits 10 value ++ rest)).tail
      else (if negative then ['-'] else []) ++ (Nat.toDigits 10 value ++ rest)) =
        Nat.toDigits 10 value ++ rest := by
    cases negative <;> rfl
  have nonempty : (Nat.toDigits 10 value).isEmpty = false := by
    rw [digits]
    rfl
  have noZero : ((Nat.toDigits 10 value).head? == some '0' &&
      (Nat.toDigits 10 value).length != 1) = false := by
    by_cases leading : (Nat.toDigits 10 value).head? = some '0'
    · rw [Text.eq_zero_of_head?_toDigits leading]
      rfl
    · simp [leading]
  simp only [readNumber, sign, unsigned, whole, after, nonempty, noZero, Bool.false_eq_true, if_false]
  split
  · rename_i more
    rcases closes '.' rfl with point | point | point <;> cases point
  · exact readExponent_closes closes negative _

theorem readNumber_integer {value : Int} (lower : -9223372036854775808 ≤ value)
    (upper : value ≤ 18446744073709551615) :
    readNumber ((JsonNumber.integer value).chars ++ rest) =
      (.whole (.integer value), some rest) := by
  have fits : value.natAbs ≤ significandLimit := by
    simp only [significandLimit]
    omega
  have taken : takeDigits 0 (Nat.toDigits 10 value.natAbs) = (value.natAbs, []) := by
    have whole := Text.digitsValue_toDigits value.natAbs
    rw [Text.digitsValue] at whole
    rw [takeDigits_of_le, whole]
    rwa [whole]
  have text : (JsonNumber.integer value).chars ++ rest =
      (if decide (value < 0) then ['-'] else []) ++ (Nat.toDigits 10 value.natAbs ++ rest) := by
    rw [JsonNumber.chars, Text.toList_toString_int, List.append_assoc]
    by_cases negative : value < 0 <;> simp [negative]
  rw [text, readNumber_digits closes, finishNumber]
  by_cases negative : value < 0
  · have whole : Numeral.value? ⟨true, Nat.toDigits 10 value.natAbs, none, none⟩ =
        some (.integer value) := by
      have small : 1 ≤ value.natAbs ∧ value.natAbs ≤ 9223372036854775808 := by omega
      simp [Numeral.value?, taken, small, abs_of_neg negative]
    simp only [negative, decide_true, whole]
  · have whole : Numeral.value? ⟨false, Nat.toDigits 10 value.natAbs, none, none⟩ =
        some (.integer value) := by
      have positive : 0 ≤ value := by omega
      simp [Numeral.value?, taken, abs_of_nonneg positive]
    simp only [negative, decide_false, whole]

end Numbers

end Document

namespace Json

/-- A value that a text can carry: its numbers are integers within 64 bits, and it is nested no deeper
than that. -/
inductive Legible : Nat → Json → Prop
  | null {depth : Nat} : Legible depth .null
  | boolean {depth : Nat} (value : Bool) : Legible depth (.boolean value)
  | integer {depth : Nat} {value : Int} : -9223372036854775808 ≤ value →
      value ≤ 18446744073709551615 → Legible depth (.integer value)
  | string {depth : Nat} (text : String) : Legible depth (.string text)
  | array {depth : Nat} {items : List Json} : (∀ item ∈ items, Legible depth item) →
      Legible (depth + 1) (.array items)
  | object {depth : Nat} {members : List (String × Json)} :
      (∀ member ∈ members, Legible depth member.2) → Legible (depth + 1) (.object members)

theorem Legible.mono {value : Json} {depth further : Nat} (legible : Legible depth value)
    (le : depth ≤ further) : Legible further value := by
  induction legible generalizing further with
  | null => exact .null
  | boolean value => exact .boolean value
  | integer lower upper => exact .integer lower upper
  | string text => exact .string text
  | array _ ih =>
      obtain ⟨further, rfl⟩ : ∃ less, further = less + 1 := ⟨further - 1, by omega⟩
      exact .array fun item member => ih item member (by omega)
  | object _ ih =>
      obtain ⟨further, rfl⟩ : ∃ less, further = less + 1 := ⟨further - 1, by omega⟩
      exact .object fun member listed => ih member listed (by omega)

theorem isWhite_of_isNumeral {character : Char} (numeral : JsonNumber.isNumeral character = true) :
    Document.isWhite character = false := by
  by_contra white
  simp only [Document.isWhite, Bool.not_eq_false, Bool.or_eq_true, beq_iff_eq] at white
  rcases white with ((rfl | rfl) | rfl) | rfl <;> cases numeral

theorem starts (value : Json) : ∃ first rest, value.chars = first :: rest ∧
    Document.isWhite first = false ∧ first ≠ ']' := by
  obtain ⟨first, rest, chars, -, notClosing, -⟩ := value.chars_eq_cons
  refine ⟨first, rest, chars, ?_, notClosing⟩
  cases value with
  | number number =>
      have member : first ∈ number.chars := by
        rw [show number.chars = first :: rest from chars]
        exact List.mem_cons_self
      exact isWhite_of_isNumeral (JsonNumber.isNumeral_of_mem_chars member)
  | boolean value => cases value <;> cases chars <;> rfl
  | _ => cases chars; rfl

end Json

namespace Document

theorem skipWhite_chars (value : Json) (rest : List Char) :
    skipWhite (value.chars ++ rest) = value.chars ++ rest := by
  obtain ⟨first, others, chars, notWhite, -⟩ := value.starts
  rw [chars, List.cons_append, skipWhite, List.dropWhile_cons_of_neg (by simp [notWhite])]

def Reads (depth : Nat) (values : List Json) : Prop :=
  ∀ value ∈ values, ∀ fuel rest, 2 * value.chars.length < fuel → Closes rest →
    readValue fuel depth (value.chars ++ rest) = (value.document, some rest)

theorem readItems_close (fuel depth : Nat) (isFirst : Bool) (rest : List Char) :
    readItems (fuel + 1) depth isFirst (']' :: rest) = ([], none, some rest) := by
  rw [readItems]
  rfl

theorem readItems_comma {fuel depth : Nat} (item : Json) (rest : List Char) :
    readItems (fuel + 1) depth false (',' :: (item.chars ++ rest)) =
      readItem fuel depth (item.chars ++ rest) := by
  obtain ⟨first, others, chars, -, notClosing⟩ := item.starts
  have comma : skipWhite (',' :: (item.chars ++ rest)) = ',' :: (item.chars ++ rest) := rfl
  rw [readItems, comma]
  split
  · contradiction
  · rename_i closed
    cases closed
  · rename_i next
    cases next
    rw [if_neg (by decide), if_pos rfl, skipWhite_chars, chars, List.cons_append]
    split
    · rename_i closed
      exact absurd (List.cons.inj closed).1 notClosing
    · rfl

theorem readItems_first {fuel depth : Nat} (item : Json) (rest : List Char) :
    readItems (fuel + 1) depth true (item.chars ++ rest) = readItem fuel depth (item.chars ++ rest) := by
  obtain ⟨first, others, chars, -, notClosing⟩ := item.starts
  rw [readItems, skipWhite_chars, chars, List.cons_append]
  split
  · contradiction
  · rename_i closed
    exact absurd (List.cons.inj closed).1 notClosing
  · rename_i next
    cases next
    rw [if_pos rfl]

theorem readItem_step {depth fuel : Nat} {item : Json} {rest : List Char}
    (read : readValue fuel depth (item.chars ++ rest) = (item.document, some rest)) :
    readItem (fuel + 1) depth (item.chars ++ rest) =
      (item.document :: (readItems fuel depth false rest).1,
        (readItems fuel depth false rest).2) := by
  rw [readItem, read]

theorem readItems_tail {depth : Nat} {items : List Json} (reads : Reads depth items) {fuel : Nat}
    (enough : 2 * (Json.itemTail items).length < fuel) (rest : List Char) :
    readItems fuel depth false (Json.itemTail items ++ ']' :: rest) =
      (Json.itemDocuments items, none, some rest) := by
  induction items generalizing fuel with
  | nil =>
      obtain ⟨fuel, rfl⟩ : ∃ less, fuel = less + 1 := ⟨fuel - 1, by omega⟩
      exact readItems_close _ _ _ _
  | cons item others ih =>
      have tail : Json.itemTail (item :: others) = ',' :: (item.chars ++ Json.itemTail others) :=
        congrArg _ (Json.itemChars_cons item others)
      rw [tail, List.length_cons, List.length_append] at enough
      obtain ⟨fuel, rfl⟩ : ∃ less, fuel = less + 2 := ⟨fuel - 2, by omega⟩
      have read := reads item List.mem_cons_self fuel (Json.itemTail others ++ ']' :: rest)
        (by omega) (closes_itemTail others rest)
      have further := ih (fun value member => reads value (List.mem_cons_of_mem _ member))
        (show 2 * (Json.itemTail others).length < fuel by omega)
      rw [tail, List.cons_append, List.append_assoc, readItems_comma, readItem_step read, further]
      rfl

theorem length_le_flatMap_escaped (text : List Char) :
    text.length ≤ (text.flatMap Json.escaped).length := by
  induction text with
  | nil => exact Nat.le_refl _
  | cons first rest ih =>
      have some : 1 ≤ (Json.escaped first).length := by
        unfold Json.escaped
        repeat' split
        all_goals simp
      rw [List.flatMap_cons, List.length_append, List.length_cons]
      omega

theorem readMembers_close (fuel depth : Nat) (rest : List Char) :
    readMembers (fuel + 1) depth ('}' :: rest) = ([], none, some rest) := by
  rw [readMembers]
  rfl

theorem readMembers_comma (fuel depth : Nat) (named : List Char) :
    readMembers (fuel + 1) depth (',' :: '"' :: named) = readMember fuel depth named := by
  rw [readMembers]
  rfl

def memberText (name : String) (value : Json) (rest : List Char) : List Char :=
  name.toList.flatMap Json.escaped ++ '"' :: ':' :: (value.chars ++ rest)

theorem readMember_step {depth fuel : Nat} {name : String} {value : Json} {rest : List Char}
    (enough : name.toList.length < fuel)
    (read : readValue fuel depth (value.chars ++ rest) = (value.document, some rest)) :
    readMember (fuel + 1) depth (memberText name value rest) =
      ((.whole name, value.document) :: (readMembers fuel depth rest).1,
        (readMembers fuel depth rest).2) := by
  have colon : skipWhite (':' :: (value.chars ++ rest)) = ':' :: (value.chars ++ rest) := rfl
  rw [memberText, readMember, readQuoted_flatMap_escaped _ _ enough]
  simp only [List.reverse_nil, List.nil_append, String.ofList_toList]
  rw [colon]
  split
  · contradiction
  · rename_i same
    cases same
    rw [read]
  · rename_i notColon same
    cases same
    exact absurd rfl notColon

theorem memberChars_eq (name : String) (value : Json) (members : List (String × Json))
    (rest : List Char) : Json.memberChars ((name, value) :: members) ++ rest =
      '"' :: memberText name value (Json.memberTail members ++ rest) := by
  simp [Json.memberChars_cons, Json.quoted, memberText]

theorem length_memberChars (name : String) (value : Json) (members : List (String × Json)) :
    name.toList.length + value.chars.length + (Json.memberTail members).length + 3 ≤
      (Json.memberChars ((name, value) :: members)).length := by
  have names := length_le_flatMap_escaped name.toList
  simp only [Json.memberChars_cons, Json.quoted, List.length_append, List.length_cons, List.length_nil]
  omega

theorem readMembers_tail {depth : Nat} {members : List (String × Json)}
    (reads : Reads depth (members.map (·.2))) {fuel : Nat}
    (enough : 2 * (Json.memberTail members).length < fuel) (rest : List Char) :
    readMembers fuel depth (Json.memberTail members ++ '}' :: rest) =
      (Json.memberDocuments members, none, some rest) := by
  induction members generalizing fuel with
  | nil =>
      obtain ⟨fuel, rfl⟩ : ∃ less, fuel = less + 1 := ⟨fuel - 1, by omega⟩
      exact readMembers_close _ _ _
  | cons member others ih =>
      obtain ⟨name, value⟩ := member
      have tail : Json.memberTail ((name, value) :: others) =
          ',' :: Json.memberChars ((name, value) :: others) := rfl
      have length := length_memberChars name value others
      rw [tail, List.length_cons] at enough
      obtain ⟨fuel, rfl⟩ : ∃ less, fuel = less + 2 := ⟨fuel - 2, by omega⟩
      have read := reads value List.mem_cons_self fuel (Json.memberTail others ++ '}' :: rest)
        (by omega) (closes_memberTail others rest)
      have further := ih (fun value member => reads value (List.mem_cons_of_mem _ member))
        (show 2 * (Json.memberTail others).length < fuel by omega)
      rw [tail, List.cons_append, memberChars_eq, readMembers_comma, readMember_step (by omega) read,
        further]
      rfl

section Values

variable {fuel depth : Nat} {rest : List Char}

theorem readValue_word (word : JsonWord) :
    readValue (fuel + 1) depth (word.letters ++ rest) = (.word word none, some rest) := by
  cases word <;> simp [readValue, skipWhite, isWhite, JsonWord.letters, readKeyword, readWord]

theorem readValue_array (shallow : depth + 1 < depthLimit) :
    readValue (fuel + 1) depth ('[' :: rest) =
      (.array (readItems fuel (depth + 1) true rest).1 (readItems fuel (depth + 1) true rest).2.1,
        (readItems fuel (depth + 1) true rest).2.2) := by
  have bracket : skipWhite ('[' :: rest) = '[' :: rest := rfl
  rw [readValue, bracket]
  simp only [nested, if_neg (Nat.not_le.mpr shallow)]

theorem readValue_object (shallow : depth + 1 < depthLimit) :
    readValue (fuel + 1) depth ('{' :: '"' :: rest) =
      (.object (readMember fuel (depth + 1) rest).1 (readMember fuel (depth + 1) rest).2.1,
        (readMember fuel (depth + 1) rest).2.2) := by
  have brace : skipWhite ('{' :: '"' :: rest) = '{' :: '"' :: rest := rfl
  have mark : skipWhite ('"' :: rest) = '"' :: rest := rfl
  rw [readValue, brace]
  simp only [mark, nested, if_neg (Nat.not_le.mpr shallow)]

theorem readValue_hollow (shallow : depth + 1 < depthLimit) :
    readValue (fuel + 1) depth ('{' :: '}' :: rest) = (.object [] none, some rest) := by
  have brace : skipWhite ('{' :: '}' :: rest) = '{' :: '}' :: rest := rfl
  have mark : skipWhite ('}' :: rest) = '}' :: rest := rfl
  rw [readValue, brace]
  simp only [mark, nested, if_neg (Nat.not_le.mpr shallow)]

theorem readValue_string {text : String} (enough : text.toList.length < fuel) :
    readValue (fuel + 1) depth (Json.quoted text ++ rest) = (.string (.whole text), some rest) := by
  have mark (after : List Char) : skipWhite ('"' :: after) = '"' :: after := rfl
  rw [Json.quoted, List.cons_append, readValue, mark]
  simp only [List.append_assoc, List.singleton_append, readQuoted_flatMap_escaped _ _ enough,
    List.reverse_nil, List.nil_append, String.ofList_toList]

theorem readValue_integer (closes : Closes rest) {value : Int} (lower : -9223372036854775808 ≤ value)
    (upper : value ≤ 18446744073709551615) :
    readValue (fuel + 1) depth ((Json.integer value).chars ++ rest) =
      (.number (.whole (.integer value)), some rest) := by
  have read := readNumber_integer closes lower upper
  have blanks := skipWhite_chars (.integer value) rest
  obtain ⟨first, others, chars⟩ : ∃ first others, (Json.integer value).chars = first :: others :=
    List.exists_cons_of_ne_nil (JsonNumber.chars_ne_nil (.integer value))
  have starts : first = '-' ∨ Text.isDigit first = true := by
    have member : first ∈ (toString value).toList := by
      change first ∈ (Json.integer value).chars
      rw [chars]
      exact List.mem_cons_self
    exact Text.mem_toString_int member
  have other {character : Char} (sign : character ≠ '-')
      (digit : Text.isDigit character = false) : first ≠ character := by
    rintro rfl
    rcases starts with same | same
    · exact sign same
    · rw [digit] at same
      cases same
  change readNumber ((Json.integer value).chars ++ rest) = _ at read
  rw [chars, List.cons_append] at read blanks ⊢
  rw [readValue, blanks]
  split
  · contradiction
  · rename_i same
    exact absurd (List.cons.inj same).1 (other (by decide) (by decide))
  · rename_i same
    exact absurd (List.cons.inj same).1 (other (by decide) (by decide))
  · rename_i same
    exact absurd (List.cons.inj same).1 (other (by decide) (by decide))
  · rename_i same
    cases same
    rw [if_neg (other (by decide) (by decide)), if_neg (other (by decide) (by decide)),
      if_neg (other (by decide) (by decide)), if_pos starts, read]

end Values

section Containers

variable {depth fuel : Nat} (shallow : depth + 1 < depthLimit)
include shallow

theorem readValue_items {items : List Json} (reads : Reads (depth + 1) items)
    (enough : 2 * (Json.chars (.array items)).length < fuel) (rest : List Char) :
    readValue fuel depth (Json.chars (.array items) ++ rest) =
      (Json.document (.array items), some rest) := by
  have length : (Json.chars (.array items)).length = (Json.itemChars items).length + 2 := by
    simp [Json.chars]
  have text : Json.chars (.array items) ++ rest = '[' :: (Json.itemChars items ++ ']' :: rest) := by
    simp [Json.chars]
  obtain ⟨fuel, rfl⟩ : ∃ less, fuel = less + 4 := ⟨fuel - 4, by omega⟩
  rw [text, readValue_array shallow]
  cases items with
  | nil =>
      rw [Json.itemChars_nil, List.nil_append, readItems_close]
      rfl
  | cons item others =>
      rw [Json.itemChars_cons, List.length_append] at length
      have read := reads item List.mem_cons_self (fuel + 1) (Json.itemTail others ++ ']' :: rest)
        (by omega) (closes_itemTail others rest)
      have further := readItems_tail
        (fun value member => reads value (List.mem_cons_of_mem _ member))
        (show 2 * (Json.itemTail others).length < fuel + 1 by omega) rest
      rw [Json.itemChars_cons, List.append_assoc, readItems_first, readItem_step read, further]
      rfl

theorem readValue_members {members : List (String × Json)}
    (reads : Reads (depth + 1) (members.map (·.2)))
    (enough : 2 * (Json.chars (.object members)).length < fuel) (rest : List Char) :
    readValue fuel depth (Json.chars (.object members) ++ rest) =
      (Json.document (.object members), some rest) := by
  have outer : (Json.chars (.object members)).length = (Json.memberChars members).length + 2 := by
    simp [Json.chars]
  have text : Json.chars (.object members) ++ rest =
      '{' :: (Json.memberChars members ++ '}' :: rest) := by
    simp [Json.chars]
  obtain ⟨fuel, rfl⟩ : ∃ less, fuel = less + 2 := ⟨fuel - 2, by omega⟩
  cases members with
  | nil => exact readValue_hollow shallow
  | cons member others =>
      obtain ⟨name, value⟩ := member
      have length := length_memberChars name value others
      have read := reads value List.mem_cons_self fuel (Json.memberTail others ++ '}' :: rest)
        (by omega) (closes_memberTail others rest)
      have further := readMembers_tail
        (fun value member => reads value (List.mem_cons_of_mem _ member))
        (show 2 * (Json.memberTail others).length < fuel by omega) rest
      rw [text, memberChars_eq, readValue_object shallow, readMember_step (by omega) read, further]
      rfl

end Containers

/-- A legible value is read as it was written. -/
theorem readValue_chars {nesting : Nat} {value : Json} (legible : Json.Legible nesting value)
    {depth : Nat} (shallow : depth + nesting < depthLimit) {fuel : Nat}
    (enough : 2 * value.chars.length < fuel) {rest : List Char} (closes : Closes rest) :
    readValue fuel depth (value.chars ++ rest) = (value.document, some rest) := by
  induction legible generalizing depth fuel rest with
  | null =>
      obtain ⟨fuel, rfl⟩ : ∃ less, fuel = less + 1 := ⟨fuel - 1, by omega⟩
      exact readValue_word .null
  | boolean value =>
      obtain ⟨fuel, rfl⟩ : ∃ less, fuel = less + 1 := ⟨fuel - 1, by omega⟩
      cases value with
      | true => exact readValue_word .yes
      | false => exact readValue_word .no
  | integer lower upper =>
      obtain ⟨fuel, rfl⟩ : ∃ less, fuel = less + 1 := ⟨fuel - 1, by omega⟩
      exact readValue_integer closes lower upper
  | string text =>
      obtain ⟨fuel, rfl⟩ : ∃ less, fuel = less + 1 := ⟨fuel - 1, by omega⟩
      have escaped := length_le_flatMap_escaped text.toList
      have length : (Json.chars (.string text)).length =
          (text.toList.flatMap Json.escaped).length + 2 := by
        simp [Json.chars, Json.quoted]
      exact readValue_string (by omega)
  | array _ ih =>
      refine readValue_items (by omega) ?_ enough rest
      intro item member fuel rest enough closes
      exact ih item member (by omega) enough closes
  | object _ ih =>
      refine readValue_members (by omega) ?_ enough rest
      intro value among fuel rest enough closes
      obtain ⟨member, listed, rfl⟩ := List.mem_map.mp among
      exact ih member listed (by omega) enough closes

theorem ofText_text {nesting : Nat} {value : Json} (legible : Json.Legible nesting value)
    (shallow : nesting < depthLimit) : ofText value.text = (value.document, some []) := by
  have read := readValue_chars legible (show 0 + nesting < depthLimit by omega)
    (show 2 * value.chars.length < 4 * value.chars.length + 4 by omega) closes_nil
  rw [List.append_nil] at read
  rw [ofText, Json.text, String.toList_ofList, read]

end Document

namespace JsonFormat

theorem ofText_text {α : Type} [JsonFormat α] [Lawful α] {value : α} {nesting : Nat}
    (legible : Json.Legible nesting (encode value)) (shallow : nesting < Document.depthLimit) :
    ofText (encode value).text = .ok value := by
  rw [ofText, Document.read, Document.ofText_text legible shallow]
  change (decode (encode value).document).bind _ = _
  rw [decode_document]
  rfl

end JsonFormat

end Agenda
