import Agenda.Cache.Session
import Agenda.Proofs.Effort

/-!
Two computations correspond when they cost the same and come to the same error, or to answers that
are related. Correspondence goes along a computation step by step, and where answers are related by
equality the computations are the same.
-/

namespace Agenda

namespace Metered

variable {α β γ δ : Type}

inductive Corresponds (related : α → β → Prop) : Metered α → Metered β → Prop
  | failed (error : Error) (effort : Effort) :
      Corresponds related ⟨.error error, effort⟩ ⟨.error error, effort⟩
  | answered {left : α} {right : β} (effort : Effort) (same : related left right) :
      Corresponds related ⟨.ok left, effort⟩ ⟨.ok right, effort⟩

namespace Corresponds

variable {related : α → β → Prop} {further : γ → δ → Prop} {first : Metered α} {second : Metered β}

theorem pure {left : α} {right : β} (same : related left right) :
    Corresponds related (Pure.pure left) (Pure.pure right) :=
  .answered .zero same

theorem bind {next : α → Metered γ} {other : β → Metered δ}
    (starts : Corresponds related first second)
    (goes : ∀ left right, related left right → Corresponds further (next left) (other right)) :
    Corresponds further (first >>= next) (second >>= other) := by
  cases starts with
  | failed error effort => exact .failed error effort
  | answered effort same =>
      have step := goes _ _ same
      rw [bind_of_ok rfl, bind_of_ok rfl]
      generalize next _ = left at step ⊢
      generalize other _ = right at step ⊢
      cases step with
      | failed error cost => exact .failed error _
      | answered cost same => exact .answered _ same

theorem onShard (starts : Corresponds related first second) (shard : ShardId) :
    Corresponds related (first.onShard shard) (second.onShard shard) := by
  cases starts with
  | failed error effort => exact .failed _ effort
  | answered effort same => exact .answered effort same

theorem ite {test other : Bool} (same : test = other) {yes no : Metered α} {yesOther noOther : Metered β}
    (whenTrue : Corresponds related yes yesOther) (whenFalse : Corresponds related no noOther) :
    Corresponds related (if test then yes else no) (if other then yesOther else noOther) := by
  subst same
  cases test with
  | true => exact whenTrue
  | false => exact whenFalse

theorem eq {first second : Metered α} (same : Corresponds Eq first second) : first = second := by
  cases same with
  | failed error effort => rfl
  | answered effort same => rw [same]

theorem refl (computation : Metered α) : Corresponds Eq computation computation := by
  obtain ⟨outcome, effort⟩ := computation
  cases outcome with
  | error error => exact .failed error effort
  | ok value => exact .answered effort rfl

theorem bind_eq {next : α → Metered γ} {other : β → Metered γ}
    (starts : Corresponds related first second)
    (goes : ∀ left right, related left right → next left = other right) :
    first >>= next = second >>= other :=
  (starts.bind fun left right same => goes left right same ▸ refl (next left)).eq

theorem session_bind_eq {next : α → Session γ} {other : β → Session γ}
    (starts : Corresponds related first second)
    (goes : ∀ left right, related left right → next left = other right) :
    Session.ofMetered first >>= next = Session.ofMetered second >>= other := by
  cases starts with
  | failed error effort => rfl
  | answered effort same =>
      funext memory
      exact congrFun (goes _ _ same) _

end Corresponds

theorem bind_congr {first : Metered α} {next other : α → Metered β}
    (goes : ∀ value, first.outcome = .ok value → next value = other value) :
    first >>= next = first >>= other := by
  cases outcome : first.outcome with
  | error error => rw [bind_of_error outcome, bind_of_error outcome]
  | ok value => rw [bind_of_ok outcome, bind_of_ok outcome, goes value outcome]

theorem session_bind_congr {first : Metered α} {next other : α → Session β}
    (goes : ∀ value, first.outcome = .ok value → next value = other value) :
    Session.ofMetered first >>= next = Session.ofMetered first >>= other := by
  obtain ⟨outcome, effort⟩ := first
  cases outcome with
  | error error => rfl
  | ok value =>
      funext memory
      exact congrFun (goes value rfl) _

end Metered

end Agenda
