import Agenda.Json.Document
import Agenda.Json.Text
import Agenda.Proofs.Text.Digits

/-!
The compact text of a JSON value is read in one way only: a quoted string ends at its own quotation
mark, a number where no character of a number follows, and so two values whose texts start the same
longer text have the same text.
-/

namespace Agenda

namespace Document

theorem readHex_control {code : Nat} (bound : code < 32) (rest : List Char) :
    readHex ('0' :: '0' :: Text.hexDigit (code / 16) :: Text.hexDigit (code % 16) :: rest) =
      .ok (code, rest) := by
  have read : ∀ code < 32, Text.readHex?
      ['0', '0', Text.hexDigit (code / 16), Text.hexDigit (code % 16)] = some code := by decide
  have size : ∀ code < 32, (String.ofList
      ['0', '0', Text.hexDigit (code / 16), Text.hexDigit (code % 16)]).utf8ByteSize = 4 := by
    decide
  simp only [readHex, List.take_succ_cons, List.take_zero, size code bound, read code bound]
  rfl

theorem readEscape_control {character : Char} (control : character.toNat < 32)
    (rest : List Char) :
    readEscape ('u' :: '0' :: '0' :: Text.hexDigit (character.toNat / 16) ::
      Text.hexDigit (character.toNat % 16) :: rest) = .ok (some character, rest) := by
  have notHigh : isHighSurrogate character.toNat = false := by
    simp only [isHighSurrogate, Bool.and_eq_false_iff, decide_eq_false_iff_not]
    omega
  have notLow : isLowSurrogate character.toNat = false := by
    simp only [isLowSurrogate, Bool.and_eq_false_iff, decide_eq_false_iff_not]
    omega
  simp only [readEscape, readHex_control control, notHigh, notLow, Char.ofNat_toNat,
    Bool.false_eq_true, if_false]

theorem readQuoted_escaped (character : Char) (fuel : Nat) (done rest : List Char) :
    readQuoted (fuel + 1) done true (Json.escaped character ++ rest) =
      readQuoted fuel (character :: done) true rest := by
  unfold Json.escaped
  split
  · subst character; rfl
  split
  · subst character; rfl
  split
  · subst character; rfl
  split
  · subst character; rfl
  split
  · subst character; rfl
  split
  · subst character; rfl
  split
  · subst character; rfl
  split
  · rename_i control
    simp only [List.cons_append, List.nil_append, readQuoted, readEscape_control control]
  · rename_i notQuote notBackslash _ _ _ _ _ notControl
    simp only [List.cons_append, List.nil_append, readQuoted]
    split <;> simp_all

theorem readQuoted_flatMap_escaped (text : List Char) (fuel : Nat) (enough : text.length < fuel)
    (done rest : List Char) :
    readQuoted fuel done true (text.flatMap Json.escaped ++ '"' :: rest) =
      (.whole (String.ofList (done.reverse ++ text)), some rest) := by
  induction text generalizing fuel done with
  | nil =>
      cases fuel with
      | zero => simp at enough
      | succ fuel => simp [readQuoted]
  | cons first others ih =>
      cases fuel with
      | zero => simp at enough
      | succ fuel =>
          have fewer : others.length < fuel := by simpa using enough
          rw [List.flatMap_cons, List.append_assoc, readQuoted_escaped, ih fuel fewer]
          simp

end Document

namespace JsonNumber

def isNumeral (character : Char) : Bool :=
  Text.isDigit character || character = '-' || character = '+' || character = '.' ||
    character = 'e'

theorem isNumeral_of_isDigit {character : Char} (digit : Text.isDigit character = true) :
    isNumeral character = true := by
  simp [isNumeral, digit]

theorem isNumeral_of_mem_toString {value : Int} {character : Char}
    (member : character ∈ (toString value).toList) : isNumeral character = true := by
  rcases Text.mem_toString_int member with rfl | digit
  · rfl
  · exact isNumeral_of_isDigit digit

theorem isNumeral_of_mem_digitText {decimal : Decimal} {character : Char}
    (member : character ∈ decimal.digitText) : isNumeral character = true :=
  isNumeral_of_isDigit (Text.isDigit_of_mem_toDigits member)

theorem isNumeral_of_mem_exponentChars {exponent : Int} {character : Char}
    (member : character ∈ exponentChars exponent) : isNumeral character = true := by
  simp only [exponentChars, List.mem_append] at member
  rcases member with sign | digits
  · split at sign
    · rw [List.mem_singleton] at sign
      subst character
      rfl
    · cases sign
  · exact isNumeral_of_mem_toString digits

theorem isNumeral_of_mem_decimalChars {format : DoubleFormat} {decimal : Decimal}
    {character : Char} (member : character ∈ decimalChars format decimal) :
    isNumeral character = true := by
  have digits := @isNumeral_of_mem_digitText decimal
  have exponents := @isNumeral_of_mem_exponentChars
  have zero : isNumeral '0' = true := rfl
  have point : isNumeral '.' = true := rfl
  have mark : isNumeral 'e' = true := rfl
  simp only [decimalChars] at member
  split at member
  · simp only [List.mem_cons, List.not_mem_nil, or_false] at member
    rcases member with rfl | rfl | rfl <;> rfl
  split at member
  · simp only [List.mem_append, List.mem_replicate, List.mem_cons, List.not_mem_nil,
      or_false] at member
    rcases member with (found | ⟨_, rfl⟩) | rfl | rfl
    · exact digits found
    · exact zero
    · exact point
    · exact zero
  split at member
  · simp only [List.mem_append, List.mem_cons] at member
    rcases member with found | rfl | found
    · exact digits (List.mem_of_mem_take found)
    · exact point
    · exact digits (List.mem_of_mem_drop found)
  split at member
  · simp only [List.cons_append, List.mem_cons, List.mem_append, List.mem_replicate] at member
    rcases member with rfl | rfl | ⟨_, rfl⟩ | found
    · exact zero
    · exact point
    · exact zero
    · exact digits found
  · simp only [List.mem_append, List.mem_cons] at member
    rcases member with mantissa | rfl | found
    · split at mantissa
      · exact digits mantissa
      · simp only [List.mem_append, List.mem_cons] at mantissa
        rcases mantissa with found | rfl | found
        · exact digits (List.mem_of_mem_take found)
        · exact point
        · exact digits (List.mem_of_mem_drop found)
    · exact mark
    · exact exponents found

theorem isNumeral_of_mem_chars {number : JsonNumber} {character : Char}
    (member : character ∈ number.chars) : isNumeral character = true := by
  cases number with
  | integer value => exact isNumeral_of_mem_toString member
  | double value =>
      simp only [chars, List.mem_append] at member
      rcases member with sign | magnitude
      · split at sign
        · rw [List.mem_singleton] at sign
          subst character
          rfl
        · cases sign
      · exact isNumeral_of_mem_decimalChars magnitude

theorem decimalChars_ne_nil (format : DoubleFormat) (decimal : Decimal) :
    decimalChars format decimal ≠ [] := by
  simp only [decimalChars]
  repeat' split
  all_goals simp

theorem chars_ne_nil (number : JsonNumber) : number.chars ≠ [] := by
  cases number with
  | integer value => exact Text.toString_int_ne_nil value
  | double value => exact List.append_ne_nil_of_right_ne_nil _ (decimalChars_ne_nil _ _)

def EndsNumeral (rest : List Char) : Prop :=
  ∀ character ∈ rest.head?, isNumeral character = false

theorem takeWhile_chars_append (number : JsonNumber) {rest : List Char}
    (ends : EndsNumeral rest) : (number.chars ++ rest).takeWhile isNumeral = number.chars := by
  rw [List.takeWhile_append_of_pos fun _ member => isNumeral_of_mem_chars member]
  cases rest with
  | nil => simp
  | cons first others => simp [ends first rfl]

theorem chars_append_inj {left right : JsonNumber} {leftRest rightRest : List Char}
    (leftEnds : EndsNumeral leftRest) (rightEnds : EndsNumeral rightRest)
    (same : left.chars ++ leftRest = right.chars ++ rightRest) :
    left.chars = right.chars ∧ leftRest = rightRest := by
  have numeral : left.chars = right.chars := by
    rw [← takeWhile_chars_append left leftEnds, same, takeWhile_chars_append right rightEnds]
  rw [numeral] at same
  exact ⟨numeral, List.append_cancel_left same⟩

end JsonNumber

namespace Json

@[elab_as_elim]
theorem induction {motive : Json → Prop} (null : motive .null)
    (boolean : ∀ value, motive (.boolean value)) (number : ∀ value, motive (.number value))
    (string : ∀ text, motive (.string text))
    (array : ∀ items, (∀ item ∈ items, motive item) → motive (.array items))
    (object : ∀ members, (∀ member ∈ members, motive member.2) → motive (.object members)) :
    ∀ value, motive value
  | .null => null
  | .boolean value => boolean value
  | .number value => number value
  | .string text => string text
  | .array items => array items fun item _ =>
      induction null boolean number string array object item
  | .object members => object members fun member _ =>
      induction null boolean number string array object member.2
termination_by value => sizeOf value
decreasing_by
  · rename_i found
    have smaller := List.sizeOf_lt_of_mem found
    simp only [Json.array.sizeOf_spec]
    omega
  · rename_i found
    have smaller := List.sizeOf_lt_of_mem found
    rcases member with ⟨name, value⟩
    simp only [Json.object.sizeOf_spec, Prod.mk.sizeOf_spec] at smaller ⊢
    omega

theorem quoted_append_inj {left right : String} {leftRest rightRest : List Char}
    (same : quoted left ++ leftRest = quoted right ++ rightRest) :
    left = right ∧ leftRest = rightRest := by
  simp only [quoted, List.cons_append, List.append_assoc, List.nil_append, List.cons.injEq,
    true_and] at same
  have readLeft := Document.readQuoted_flatMap_escaped left.toList
    (left.toList.length + right.toList.length + 1) (by omega) [] leftRest
  have readRight := Document.readQuoted_flatMap_escaped right.toList
    (left.toList.length + right.toList.length + 1) (by omega) [] rightRest
  rw [same, readRight] at readLeft
  simpa [eq_comm] using readLeft

inductive Shape where
  | null
  | yes
  | no
  | number
  | string
  | array
  | object

namespace Shape

def ofFirst (first : Char) : Shape :=
  if first = 'n' then .null
  else if first = 't' then .yes
  else if first = 'f' then .no
  else if first = '"' then .string
  else if first = '[' then .array
  else if first = '{' then .object
  else .number

theorem ofFirst_numeral {first : Char} (numeral : JsonNumber.isNumeral first = true) :
    ofFirst first = .number := by
  have different {other : Char} (notNumeral : JsonNumber.isNumeral other = false) :
      first ≠ other := by
    rintro rfl
    rw [notNumeral] at numeral
    cases numeral
  have word : first ≠ 'n' ∧ first ≠ 't' ∧ first ≠ 'f' :=
    ⟨different rfl, different rfl, different rfl⟩
  have mark : first ≠ '"' ∧ first ≠ '[' ∧ first ≠ '{' :=
    ⟨different rfl, different rfl, different rfl⟩
  simp only [ofFirst, word, mark, if_false]

end Shape

def shape : Json → Shape
  | .null => .null
  | .boolean true => .yes
  | .boolean false => .no
  | .number _ => .number
  | .string _ => .string
  | .array _ => .array
  | .object _ => .object

theorem chars_eq_cons (value : Json) : ∃ first rest, value.chars = first :: rest ∧
    Shape.ofFirst first = value.shape ∧ first ≠ ']' ∧ first ≠ '}' := by
  cases value with
  | null => exact ⟨_, _, rfl, rfl, by decide, by decide⟩
  | boolean value => cases value <;> exact ⟨_, _, rfl, rfl, by decide, by decide⟩
  | number value =>
      obtain ⟨first, rest, chars⟩ := List.exists_cons_of_ne_nil value.chars_ne_nil
      have member : first ∈ value.chars := by
        rw [chars]
        exact List.mem_cons_self
      have numeral : JsonNumber.isNumeral first = true := JsonNumber.isNumeral_of_mem_chars member
      refine ⟨first, rest, chars, Shape.ofFirst_numeral numeral, ?_, ?_⟩
      · rintro rfl
        cases numeral
      · rintro rfl
        cases numeral
  | string text => exact ⟨_, _, rfl, rfl, by decide, by decide⟩
  | array items => exact ⟨_, _, rfl, rfl, by decide, by decide⟩
  | object members => exact ⟨_, _, rfl, rfl, by decide, by decide⟩

theorem shape_eq_of_chars_append {left right : Json} {leftRest rightRest : List Char}
    (same : left.chars ++ leftRest = right.chars ++ rightRest) : left.shape = right.shape := by
  obtain ⟨leftFirst, leftTail, leftChars, leftShape, -⟩ := left.chars_eq_cons
  obtain ⟨rightFirst, rightTail, rightChars, rightShape, -⟩ := right.chars_eq_cons
  rw [leftChars, rightChars, List.cons_append, List.cons_append] at same
  rw [← leftShape, ← rightShape, (List.cons.inj same).1]

def itemTail (rest : List Json) : List Char :=
  if rest.isEmpty then [] else ',' :: itemChars rest

theorem itemChars_nil : itemChars [] = [] := by
  rfl

theorem itemChars_cons (item : Json) (rest : List Json) :
    itemChars (item :: rest) = item.chars ++ itemTail rest := by
  cases rest <;> simp [itemChars, itemTail]

def memberTail (rest : List (String × Json)) : List Char :=
  if rest.isEmpty then [] else ',' :: memberChars rest

theorem memberChars_nil : memberChars [] = [] := by
  rfl

theorem memberChars_cons (name : String) (value : Json) (rest : List (String × Json)) :
    memberChars ((name, value) :: rest) = quoted name ++ ':' :: (value.chars ++ memberTail rest) := by
  cases rest <;> simp [memberChars, memberTail]

theorem endsNumeral_itemTail (rest : List Json) (after : List Char) :
    JsonNumber.EndsNumeral (itemTail rest ++ ']' :: after) := by
  cases rest <;> simp [JsonNumber.EndsNumeral, itemTail] <;> decide

theorem endsNumeral_memberTail (rest : List (String × Json)) (after : List Char) :
    JsonNumber.EndsNumeral (memberTail rest ++ '}' :: after) := by
  cases rest <;> simp [JsonNumber.EndsNumeral, memberTail] <;> decide

/-- The text of the value is read in one way: whatever follows two values, if the longer texts are
the same, then so are the texts of the values. -/
def ReadsOneWay (left : Json) : Prop :=
  ∀ (right : Json) (leftRest rightRest : List Char), JsonNumber.EndsNumeral leftRest →
    JsonNumber.EndsNumeral rightRest → left.chars ++ leftRest = right.chars ++ rightRest →
    left.chars = right.chars ∧ leftRest = rightRest

theorem itemChars_append_inj {left : List Json} (oneWay : ∀ item ∈ left, item.ReadsOneWay)
    {right : List Json} {leftRest rightRest : List Char}
    (same : itemChars left ++ ']' :: leftRest = itemChars right ++ ']' :: rightRest) :
    List.Forall₂ (fun a b => chars a = chars b) left right ∧ leftRest = rightRest := by
  induction left generalizing right with
  | nil =>
      cases right with
      | nil => exact ⟨.nil, by simpa [itemChars_nil] using same⟩
      | cons item rest =>
          obtain ⟨first, tail, opening, -, notClosing, -⟩ := item.chars_eq_cons
          simp only [itemChars_cons, itemChars_nil, opening, List.nil_append, List.cons_append,
            List.cons.injEq] at same
          exact absurd same.1.symm notClosing
  | cons item rest ih =>
      cases right with
      | nil =>
          obtain ⟨first, tail, opening, -, notClosing, -⟩ := item.chars_eq_cons
          simp only [itemChars_cons, itemChars_nil, opening, List.nil_append, List.cons_append,
            List.cons.injEq] at same
          exact absurd same.1 notClosing
      | cons other others =>
          rw [itemChars_cons, itemChars_cons, List.append_assoc, List.append_assoc] at same
          obtain ⟨first, tails⟩ := oneWay item List.mem_cons_self other _ _
            (endsNumeral_itemTail _ _) (endsNumeral_itemTail _ _) same
          have later := fun member found => oneWay member (List.mem_cons_of_mem item found)
          cases rest <;> cases others
          · exact ⟨.cons first .nil, by simpa [itemTail] using tails⟩
          · simp [itemTail] at tails
          · simp [itemTail] at tails
          · simp only [itemTail, List.isEmpty_cons, Bool.false_eq_true, if_false, List.cons_append,
              List.cons.injEq, true_and] at tails
            obtain ⟨agree, rests⟩ := ih later tails
            exact ⟨.cons first agree, rests⟩

def SameMember (left right : String × Json) : Prop :=
  left.1 = right.1 ∧ left.2.chars = right.2.chars

theorem memberChars_append_inj {left : List (String × Json)}
    (oneWay : ∀ member ∈ left, member.2.ReadsOneWay) {right : List (String × Json)}
    {leftRest rightRest : List Char}
    (same : memberChars left ++ '}' :: leftRest = memberChars right ++ '}' :: rightRest) :
    List.Forall₂ SameMember left right ∧ leftRest = rightRest := by
  induction left generalizing right with
  | nil =>
      cases right with
      | nil => exact ⟨.nil, by simpa [memberChars_nil] using same⟩
      | cons member rest =>
          obtain ⟨name, value⟩ := member
          simp [memberChars_cons, memberChars_nil, quoted] at same
  | cons member rest ih =>
      obtain ⟨name, value⟩ := member
      cases right with
      | nil => simp [memberChars_cons, memberChars_nil, quoted] at same
      | cons other others =>
          obtain ⟨otherName, otherValue⟩ := other
          rw [memberChars_cons, memberChars_cons, List.append_assoc, List.append_assoc] at same
          obtain ⟨names, values⟩ := quoted_append_inj same
          simp only [List.cons_append, List.append_assoc, List.cons.injEq, true_and] at values
          obtain ⟨first, tails⟩ := oneWay (name, value) List.mem_cons_self otherValue _ _
            (endsNumeral_memberTail _ _) (endsNumeral_memberTail _ _) values
          have later := fun member found => oneWay member (List.mem_cons_of_mem (name, value) found)
          cases rest <;> cases others
          · exact ⟨.cons ⟨names, first⟩ .nil, by simpa [memberTail] using tails⟩
          · simp [memberTail] at tails
          · simp [memberTail] at tails
          · simp only [memberTail, List.isEmpty_cons, Bool.false_eq_true, if_false,
              List.cons_append, List.cons.injEq, true_and] at tails
            obtain ⟨agree, rests⟩ := ih later tails
            exact ⟨.cons ⟨names, first⟩ agree, rests⟩

theorem itemChars_congr {left right : List Json}
    (agree : List.Forall₂ (fun a b => chars a = chars b) left right) :
    itemChars left = itemChars right := by
  induction agree with
  | nil => rfl
  | cons first rest ih =>
      rw [itemChars_cons, itemChars_cons, first]
      cases rest <;> simp [itemTail, ih]

theorem memberChars_congr {left right : List (String × Json)}
    (agree : List.Forall₂ SameMember left right) : memberChars left = memberChars right := by
  induction agree with
  | nil => rfl
  | cons first rest ih =>
      obtain ⟨names, values⟩ := first
      rw [memberChars_cons, memberChars_cons, names, values]
      cases rest <;> simp [memberTail, ih]

theorem readsOneWay (left : Json) : left.ReadsOneWay := by
  induction left using Json.induction with
  | null =>
      intro right leftRest rightRest _ _ same
      have shapes := shape_eq_of_chars_append same
      cases right with
      | null => exact ⟨rfl, List.append_cancel_left same⟩
      | boolean other => cases other <;> cases shapes
      | _ => cases shapes
  | boolean value =>
      intro right leftRest rightRest _ _ same
      have shapes := shape_eq_of_chars_append same
      cases right with
      | boolean other =>
          have values : value = other := by
            cases value <;> cases other <;> first | rfl | cases shapes
          subst other
          exact ⟨rfl, List.append_cancel_left same⟩
      | _ => cases value <;> cases shapes
  | number value =>
      intro right leftRest rightRest leftEnds rightEnds same
      have shapes := shape_eq_of_chars_append same
      cases right with
      | number other => exact JsonNumber.chars_append_inj leftEnds rightEnds same
      | boolean other => cases other <;> cases shapes
      | _ => cases shapes
  | string text =>
      intro right leftRest rightRest _ _ same
      have shapes := shape_eq_of_chars_append same
      cases right with
      | string other =>
          obtain ⟨texts, rests⟩ := quoted_append_inj same
          exact ⟨by rw [texts], rests⟩
      | boolean other => cases other <;> cases shapes
      | _ => cases shapes
  | array items ih =>
      intro right leftRest rightRest _ _ same
      have shapes := shape_eq_of_chars_append same
      cases right with
      | array others =>
          simp only [chars, List.cons_append, List.append_assoc, List.nil_append, List.cons.injEq,
            true_and] at same ⊢
          obtain ⟨agree, rests⟩ := itemChars_append_inj ih same
          exact ⟨by rw [itemChars_congr agree], rests⟩
      | boolean other => cases other <;> cases shapes
      | _ => cases shapes
  | object members ih =>
      intro right leftRest rightRest _ _ same
      have shapes := shape_eq_of_chars_append same
      cases right with
      | object others =>
          simp only [chars, List.cons_append, List.append_assoc, List.nil_append, List.cons.injEq,
            true_and] at same ⊢
          obtain ⟨agree, rests⟩ := memberChars_append_inj ih same
          exact ⟨by rw [memberChars_congr agree], rests⟩
      | boolean other => cases other <;> cases shapes
      | _ => cases shapes

end Json

end Agenda
