import Agenda.Number.Decimal

/-!
The shortest decimal that reads back as a given double. For one digit, two digits and so on, the
two neighbours of the value on that decimal grid are tested against the interval of reals that
round to the double; the first grid with a hit wins, and of two hits the nearer.
-/

namespace Agenda

namespace Binary64

/-- The reals that round to a magnitude, in quarters of its last place: lower end, the value
itself, upper end. Below a power of two the lower neighbour is half as far away. -/
def quarters (value : Binary64) : Nat × Nat × Nat :=
  let middle := 4 * value.mantissa
  let lowered :=
    if value.mantissa = leastNormal ∧ leastExponent < value.exponent then middle - 1
    else middle - 2
  (lowered, middle, middle + 2)

def aligned (value : Binary64) (count : Nat) (digits : Nat) (grid : Int) : Nat × Nat :=
  let place := value.exponent - 2
  let up := count * Nat.pow 2 place.toNat * Nat.pow 10 (-grid).toNat
  let down := digits * Nat.pow 10 grid.toNat * Nat.pow 2 (-place).toNat
  (up, down)

def readsBack (value : Binary64) (digits : Nat) (grid : Int) : Bool :=
  let (lower, _, upper) := value.quarters
  let low := value.aligned lower digits grid
  let high := value.aligned upper digits grid
  if value.mantissa % 2 = 0 then low.1 ≤ low.2 && high.2 ≤ high.1
  else low.1 < low.2 && high.2 < high.1

def floorOnGrid (value : Binary64) (grid : Int) : Nat :=
  let sides := value.aligned value.quarters.2.1 1 grid
  sides.1 / sides.2

def nearer (value : Binary64) (lower : Nat) (grid : Int) : Nat :=
  let middle := value.quarters.2.1
  let low := value.aligned middle lower grid
  let high := value.aligned middle (lower + 1) grid
  let below := low.1 - low.2
  let above := high.2 - high.1
  if below < above then lower
  else if above < below then lower + 1
  else if lower % 2 = 0 then lower else lower + 1

def onGrid? (value : Binary64) (grid : Int) : Option Decimal :=
  let lower := value.floorOnGrid grid
  match value.readsBack lower grid, value.readsBack (lower + 1) grid with
  | true, true => some ⟨value.nearer lower grid, grid⟩
  | true, false => some ⟨lower, grid⟩
  | false, true => some ⟨lower + 1, grid⟩
  | false, false => none

def leadingZeros : Nat → Nat → Nat → Nat
  | 0, _, _ => 0
  | steps + 1, numerator, denominator =>
      if denominator ≤ numerator * 10 then 0
      else leadingZeros steps (numerator * 10) denominator + 1

def pointPosition (value : Binary64) : Int :=
  let (numerator, denominator) := value.fraction
  if denominator ≤ numerator then ((Nat.toDigits 10 (numerator / denominator)).length : Int)
  else -(leadingZeros 400 numerator denominator : Int)

def firstOnGrids (value : Binary64) (position : Int) : Nat → Nat → Decimal
  | 0, count => ⟨value.floorOnGrid (position - count), position - count⟩
  | steps + 1, count =>
      match value.onGrid? (position - count) with
      | some decimal => decimal
      | none => firstOnGrids value position steps (count + 1)

/-- The fewest digits that read back as the magnitude; of those the nearest. -/
def shortest (value : Binary64) : Decimal :=
  if value.mantissa = 0 then ⟨0, 0⟩
  else (firstOnGrids value value.pointPosition 17 1).stripZeros 20

end Binary64

end Agenda
