import Agenda.Number.Binary64
import Agenda.Text.Integer

/-!
Decimals: whole digits and a power of ten, the form in which numbers with a point are read and
doubles are written.
-/

namespace Agenda

structure Decimal where
  digits : Nat
  exponent : Int
deriving DecidableEq, Repr

namespace Decimal

def stripZeros : Nat → Decimal → Decimal
  | 0, decimal => decimal
  | steps + 1, decimal =>
      if decimal.digits ≠ 0 ∧ decimal.digits % 10 = 0 then
        stripZeros steps ⟨decimal.digits / 10, decimal.exponent + 1⟩
      else decimal

def digitText (decimal : Decimal) : List Char :=
  Nat.toDigits 10 decimal.digits

def ofPointed? (text : List Char) : Option Decimal :=
  let unsigned := match text with
    | '+' :: rest => rest
    | '-' :: rest => rest
    | rest => rest
  match unsigned.dropWhile Text.isDigit with
  | '.' :: rest =>
      let fraction := rest.takeWhile Text.isDigit
      let digits := unsigned.takeWhile Text.isDigit ++ fraction
      let scaled (exponent : Int) : Decimal :=
        ⟨Text.digitsValue digits, exponent - fraction.length⟩
      if digits.isEmpty then none
      else
        match rest.dropWhile Text.isDigit with
        | [] => some (scaled 0)
        | mark :: exponent =>
            if mark = 'e' ∨ mark = 'E' then (Text.readInteger? exponent).map scaled else none
  | _ => none

def greatestPlaces : Int := 309

/-- Whether rounding to the nearest double leads beyond the greatest one. Only a decimal with as many
places as the greatest double needs exact arithmetic. -/
def isBeyondDoubles (decimal : Decimal) : Bool :=
  let places : Int := decimal.digitText.length + decimal.exponent
  if decimal.digits = 0 ∨ places < greatestPlaces then false
  else if greatestPlaces < places then true
  else
    (Binary64.ofFraction? false (decimal.digits * Nat.pow 10 decimal.exponent.toNat)
      (Nat.pow 10 (-decimal.exponent).toNat)).isNone

end Decimal

end Agenda
