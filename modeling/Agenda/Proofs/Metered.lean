import Agenda.Metered
import Agenda.Deployment
import Mathlib

/-!
Outcomes of metered computations, effort aside.
-/

namespace Agenda

theorem bind_eq_ok {ε α β : Type} {first : Except ε α} {next : α → Except ε β} {value : β} :
    first.bind next = .ok value ↔ ∃ between, first = .ok between ∧ next between = .ok value := by
  cases first <;> simp [Except.bind]

theorem map_eq_ok {ε α β : Type} {first : Except ε α} {change : α → β} {value : β} :
    first.map change = .ok value ↔ ∃ between, first = .ok between ∧ change between = value := by
  cases first <;> simp [Except.map]

theorem mapError_eq_ok {ε δ α : Type} {first : Except ε α} {change : ε → δ} {value : α} :
    first.mapError change = .ok value ↔ first = .ok value := by
  cases first <;> simp [Except.mapError]

namespace Metered

variable {α β : Type}

@[simp] theorem outcome_pure (value : α) : (Pure.pure value : Metered α).outcome = .ok value :=
  rfl

@[simp] theorem outcome_bind (first : Metered α) (next : α → Metered β) :
    (first >>= next).outcome = first.outcome.bind fun value => (next value).outcome := by
  change (Metered.bind first next).outcome = _
  unfold Metered.bind
  cases first.outcome <;> rfl

theorem outcome_bind_eq_ok {first : Metered α} {next : α → Metered β} {value : β} :
    (first >>= next).outcome = .ok value ↔
      ∃ between, first.outcome = .ok between ∧ (next between).outcome = .ok value := by
  rw [outcome_bind, bind_eq_ok]

@[simp] theorem outcome_spend (effort : Effort) (outcome : Except Error α) :
    (spend effort outcome).outcome = outcome :=
  rfl

@[simp] theorem outcome_onShard (computation : Metered α) (shard : ShardId) :
    (computation.onShard shard).outcome = computation.outcome.mapError (·.onShard shard) :=
  rfl

end Metered

theorem Deployment.outcome_use {α : Type} {deployment : Deployment} {facility : Facility}
    (working : deployment.failure? facility = none) (effort : Effort) (answer : α) :
    (deployment.use facility effort answer).outcome = .ok answer := by
  simp [Deployment.use, working]

end Agenda
