import Agenda.Time.Date
import Agenda.Time.Duration

/-!
Instants of universal time, to the nanosecond. A leap second is the second half of a doubled range
of nanoseconds after the last second of a minute.
-/

namespace Agenda

structure Instant where
  date : Date
  second : Nat
  /-- Nanoseconds; from one milliard on they count inside a leap second. -/
  nano : Nat
  second_lt : second < 86400
  nano_lt : nano < 1000000000 ∨ nano < 2000000000 ∧ second % 60 = 59

namespace Instant

def of? (date : Date) (second nano : Nat) : Option Instant :=
  if inDay : second < 86400 then
    if inSecond : nano < 1000000000 ∨ nano < 2000000000 ∧ second % 60 = 59 then
      some ⟨date, second, nano, inDay, inSecond⟩
    else none
  else none

def order (instant : Instant) : Int :=
  (((instant.date.year * 13 + instant.date.month) * 32 + instant.date.day) * 86400 +
    instant.second) * 2000000000 + instant.nano

instance : LE Instant := ⟨fun left right => left.order ≤ right.order⟩

instance : LT Instant := ⟨fun left right => left.order < right.order⟩

instance (left right : Instant) : Decidable (left ≤ right) :=
  inferInstanceAs (Decidable (left.order ≤ right.order))

instance (left right : Instant) : Decidable (left < right) :=
  inferInstanceAs (Decidable (left.order < right.order))

def isLeapSecond (instant : Instant) : Bool :=
  1000000000 ≤ instant.nano

/-- The instant a span of time later, unless it is beyond the last one. Less than a second may stay
inside a leap second; otherwise a leap second counts as the second before it. -/
def add? (instant : Instant) (span : Duration) : Option Instant :=
  let seconds := span.nanoseconds / 1000000000
  let nanos := span.nanoseconds % 1000000000
  if instant.isLeapSecond && seconds == 0 && decide (instant.nano + nanos < 2000000000) then
    of? instant.date instant.second (instant.nano + nanos)
  else
    let nano := instant.nano % 1000000000 + nanos
    let second := instant.second + seconds + nano / 1000000000
    (instant.date.addDays? (second / 86400 : Nat)).bind fun date =>
      of? date (second % 86400) (nano % 1000000000)

end Instant

end Agenda
