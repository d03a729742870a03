import Agenda.Text.Digit

/-!
Whole numbers in settings and arguments: decimal digits after an optional sign.
-/

namespace Agenda.Text

def greatestWord : Nat := 18446744073709551615

def readDigits? (digits : List Char) : Option Nat :=
  if !digits.isEmpty && digits.all isDigit then some (digitsValue digits) else none

def readWord? (text : List Char) : Option Nat := do
  let value ← match text with
    | '+' :: digits => readDigits? digits
    | digits => readDigits? digits
  if value ≤ greatestWord then some value else none

def readInteger? (text : List Char) : Option Int :=
  match text with
  | '-' :: digits => (readDigits? digits).map fun value => -(value : Int)
  | '+' :: digits => (readDigits? digits).map fun value => (value : Int)
  | digits => (readDigits? digits).map fun value => (value : Int)

end Agenda.Text
