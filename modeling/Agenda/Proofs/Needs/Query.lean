import Agenda.Needs.Query
import Agenda.Proofs.Cache.ReadThrough

/-!
The course of a cached query: disabled, without a scope, with nothing in its scope to look at, or a
call of the cache for that scope.
-/

namespace Agenda

namespace NeedsQuery

variable (query : NeedsQuery) (deployment : Deployment) (user : UserId) (options : NeedsOptions)
  (memory : Memory)

def afterScope : Memory :=
  { memory with effort := memory.effort + (query.scope deployment user options).effort }

theorem isDisabled_eq_false {config : Config} (grading : config.gradingDisabled = false) :
    query.isDisabled config = false := by
  cases query with
  | grading kind => exact grading
  | _ => rfl

variable {query deployment user options memory}

theorem runCached_disabled (disabled : query.isDisabled deployment.config = true) :
    query.runCached deployment user options memory = (.ok [], memory) := by
  rw [runCached, if_pos disabled]
  rfl

theorem runCached_unresolved (enabled : query.isDisabled deployment.config = false) {error : Error}
    (unresolved : (query.scope deployment user options).outcome = .error error) :
    query.runCached deployment user options memory =
      (.error (.failed error), query.afterScope deployment user options memory) := by
  rw [runCached, if_neg (by simp [enabled])]
  change Session.bind _ _ memory = _
  simp only [Session.bind, Session.ofMetered, unresolved, Except.mapError]
  rfl

theorem runCached_outside (enabled : query.isDisabled deployment.config = false) {scope : Scope}
    (resolved : (query.scope deployment user options).outcome = .ok scope)
    (outside : query.isOutside scope = true) :
    query.runCached deployment user options memory =
      (.ok [], query.afterScope deployment user options memory) := by
  rw [runCached, if_neg (by simp [enabled])]
  change Session.bind _ _ memory = _
  simp only [Session.bind, Session.ofMetered, resolved, Except.mapError, outside, if_true]
  rfl

theorem runCached_inside (enabled : query.isDisabled deployment.config = false) {scope : Scope}
    (resolved : (query.scope deployment user options).outcome = .ok scope)
    (inside : query.isOutside scope = false) :
    query.runCached deployment user options memory =
      (query.cacheRequest deployment.config user options scope).fetch deployment
        (query.firstItems deployment user options scope)
        (query.afterScope deployment user options memory) := by
  rw [runCached, if_neg (by simp [enabled])]
  change Session.bind _ _ memory = _
  simp only [Session.bind, Session.ofMetered, resolved, Except.mapError, inside]
  rfl

theorem outcome_run_disabled (disabled : query.isDisabled deployment.config = true) :
    (query.run deployment user options).outcome = .ok [] := by
  rw [run, if_pos disabled]
  rfl

theorem outcome_run_enabled (enabled : query.isDisabled deployment.config = false) :
    (query.run deployment user options).outcome =
      (query.scope deployment user options).outcome.bind fun scope =>
        (query.list deployment user options scope).outcome := by
  rw [run, if_neg (by simp [enabled]), Metered.outcome_bind]

end NeedsQuery

end Agenda
