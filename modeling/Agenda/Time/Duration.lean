/-!
Spans of time, to the nanosecond.
-/

namespace Agenda

structure Duration where
  nanoseconds : Nat
deriving DecidableEq, Repr

namespace Duration

def ofSeconds (seconds : Nat) : Duration :=
  ⟨1000000000 * seconds⟩

def ofMilliseconds (milliseconds : Nat) : Duration :=
  ⟨1000000 * milliseconds⟩

/-- A bare number counts milliseconds. -/
instance : Coe Nat Duration := ⟨ofMilliseconds⟩

instance : LE Duration := ⟨fun left right => left.nanoseconds ≤ right.nanoseconds⟩

instance : LT Duration := ⟨fun left right => left.nanoseconds < right.nanoseconds⟩

instance (left right : Duration) : Decidable (left ≤ right) :=
  inferInstanceAs (Decidable (left.nanoseconds ≤ right.nanoseconds))

instance (left right : Duration) : Decidable (left < right) :=
  inferInstanceAs (Decidable (left.nanoseconds < right.nanoseconds))

protected theorem not_lt {left right : Duration} : ¬ left < right ↔ right ≤ left :=
  Nat.not_lt

end Duration

end Agenda
