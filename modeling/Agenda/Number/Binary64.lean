/-!
Finite binary64 numbers in exact arithmetic: rounding of a quotient to the nearest double (a half
goes to the even mantissa), and products and quotients that round once.
-/

namespace Agenda

/-- A finite double, `±mantissa · 2 ^ exponent`. The exponent is at least `-1074`, the mantissa is
below `2 ^ 53`, and it is at least `2 ^ 52` unless the exponent is `-1074`. -/
structure Binary64 where
  negative : Bool
  mantissa : Nat
  exponent : Int
deriving DecidableEq, Repr

namespace Binary64

def leastExponent : Int := -1074

def leastNormal : Nat := 4503599627370496

def mantissaLimit : Nat := 9007199254740992

def greatestExponent : Int := 971

def zero (negative : Bool) : Binary64 :=
  ⟨negative, 0, leastExponent⟩

def roundHalfEven (numerator denominator : Nat) : Nat :=
  let quotient := numerator / denominator
  let doubled := 2 * (numerator % denominator)
  if doubled < denominator then quotient
  else if denominator < doubled then quotient + 1
  else if quotient % 2 = 0 then quotient else quotient + 1

def unscaled (numerator denominator : Nat) (exponent : Int) : Nat × Nat :=
  if 0 ≤ exponent then (numerator, denominator * Nat.pow 2 exponent.toNat)
  else (numerator * Nat.pow 2 (-exponent).toNat, denominator)

/-- The double nearest to `±numerator / denominator`, unless that is beyond the greatest one. -/
def ofFraction? (negative : Bool) (numerator denominator : Nat) : Option Binary64 :=
  if numerator = 0 then some (zero negative)
  else
    let estimate : Int := numerator.log2 - denominator.log2 - 53
    let low := max estimate leastExponent
    let atLow := unscaled numerator denominator low
    let exponent := if atLow.1 / atLow.2 < mantissaLimit then low else low + 1
    let fraction := unscaled numerator denominator exponent
    let rounded := roundHalfEven fraction.1 fraction.2
    let mantissa := if rounded = mantissaLimit then leastNormal else rounded
    let exponent := if rounded = mantissaLimit then exponent + 1 else exponent
    if exponent ≤ greatestExponent then some ⟨negative, mantissa, exponent⟩ else none

def fraction (value : Binary64) : Nat × Nat :=
  if 0 ≤ value.exponent then (value.mantissa * Nat.pow 2 value.exponent.toNat, 1)
  else (value.mantissa, Nat.pow 2 (-value.exponent).toNat)

def mul? (left right : Binary64) : Option Binary64 :=
  let a := left.fraction
  let b := right.fraction
  ofFraction? left.negative (a.1 * b.1) (a.2 * b.2)

def div? (left right : Binary64) : Option Binary64 :=
  let a := left.fraction
  let b := right.fraction
  ofFraction? left.negative (a.1 * b.2) (a.2 * b.1)

def greatestPowerStep : Nat := 308

def powerOfTen (power : Nat) : Binary64 :=
  (ofFraction? false (Nat.pow 10 power) 1).getD (zero false)

/-- Scaling by `10 ^ exponent` in rounded steps: a power of ten up to `10 ^ 308` is one
multiplication or division; beyond it the value is divided by `10 ^ 308` until the rest is in
reach, and a multiplication out of reach has no result. -/
def scaleByTen? : Nat → Binary64 → Int → Option Binary64
  | 0, value, _ => some value
  | steps + 1, value, exponent =>
      if exponent.natAbs ≤ greatestPowerStep then
        if 0 ≤ exponent then value.mul? (powerOfTen exponent.natAbs)
        else value.div? (powerOfTen exponent.natAbs)
      else if value.mantissa = 0 then some value
      else if 0 ≤ exponent then none
      else
        match value.div? (powerOfTen greatestPowerStep) with
        | none => none
        | some smaller => scaleByTen? steps smaller (exponent + greatestPowerStep)

/-- The double read from leading digits and a power of ten: the digits are rounded first, the
scaling rounds after that. Four steps of `10 ^ 308` take every double to zero. -/
def ofDigits? (negative : Bool) (significand : Nat) (exponent : Int) : Option Binary64 :=
  match ofFraction? negative significand 1 with
  | none => none
  | some leading => scaleByTen? 8 leading exponent

end Binary64

end Agenda
