import Agenda.Cache
import Mathlib

/-!
The order of instants, and how far they reach: all of time is shorter than the longest lifetime.
-/

namespace Agenda

namespace Date

theorem month_bound (date : Date) : date.month < 13 := by
  obtain ⟨-, -, -, month, -, -⟩ := date.exists_date
  omega

theorem day_bound (date : Date) : date.day < 32 := by
  obtain ⟨-, -, -, -, -, day⟩ := date.exists_date
  unfold daysInMonth at day
  split at day <;> split at day <;> omega

theorem le_dayNumber (date : Date) : -100000000 ≤ date.dayNumber := by
  obtain ⟨least, -, -, -, day, -⟩ := date.exists_date
  simp only [leastYear] at least
  simp only [dayNumber]
  split <;> omega

theorem ofDayNumber?_eq_none {number : Int} (late : 100000000 ≤ number) :
    ofDayNumber? number = none := by
  unfold ofDayNumber? of?
  refine dif_neg fun found => ?_
  have greatest := found.2.1
  simp only [greatestYear] at greatest
  omega

end Date

namespace Instant

/-- Instants are in order by the first of year, month, day, second and nanosecond that differs. -/
theorem lt_iff {left right : Instant} : left < right ↔
    left.date.year < right.date.year ∨ left.date.year = right.date.year ∧
      (left.date.month < right.date.month ∨ left.date.month = right.date.month ∧
        (left.date.day < right.date.day ∨ left.date.day = right.date.day ∧
          (left.second < right.second ∨ left.second = right.second ∧ left.nano < right.nano))) := by
  have months := And.intro left.date.month_bound right.date.month_bound
  have days := And.intro left.date.day_bound right.date.day_bound
  have seconds := And.intro left.second_lt right.second_lt
  have nanos := And.intro left.nano_lt right.nano_lt
  change left.order < right.order ↔ _
  simp only [order]
  omega

theorem order_injective {left right : Instant} (same : left.order = right.order) : left = right := by
  have notBefore : ¬ left < right := fun before => absurd same (ne_of_lt before)
  have notAfter : ¬ right < left := fun after => absurd same (ne_of_gt after)
  rw [lt_iff] at notBefore notAfter
  obtain ⟨⟨leftYear, leftMonth, leftDay, _⟩, leftSecond, leftNano, _, _⟩ := left
  obtain ⟨⟨rightYear, rightMonth, rightDay, _⟩, rightSecond, rightNano, _, _⟩ := right
  simp only at notBefore notAfter
  obtain ⟨rfl, rfl, rfl, rfl, rfl⟩ : leftYear = rightYear ∧ leftMonth = rightMonth ∧
      leftDay = rightDay ∧ leftSecond = rightSecond ∧ leftNano = rightNano := by
    omega
  rfl

/-- A lifetime that is too long to be written leads beyond the last instant. -/
theorem add?_eq_none {now : Instant} {span : Duration} (long : Cache.longestLifetime < span) :
    now.add? span = none := by
  change 1000000 * 9223372036854775807 < span.nanoseconds at long
  have seconds : (span.nanoseconds / 1000000000 == 0) = false := by
    simp only [beq_eq_false_iff_ne]
    omega
  have start := now.date.le_dayNumber
  have late (days : Nat) (long : 100000000000 ≤ days) : now.date.addDays? days = none := by
    rw [Date.addDays?, if_neg (by omega), Date.ofDayNumber?_eq_none (by omega)]
  simp only [add?, seconds, Bool.and_false, Bool.false_and, Bool.false_eq_true, if_false]
  rw [late _ (by omega)]
  rfl

end Instant

end Agenda
