import Agenda.Proofs.Metered
import Agenda.Scope

/-!
Efforts add up along a computation. Resolving a scope asks the directory and checks permissions in
bulk: it reads no shard and makes no check of one permission.
-/

namespace Agenda

namespace Effort

@[simp] theorem reads_add (left right : Effort) : (left + right).reads = left.reads + right.reads :=
  rfl

@[simp] theorem singleChecks_add (left right : Effort) :
    (left + right).singleChecks = left.singleChecks + right.singleChecks :=
  rfl

theorem zero_add (effort : Effort) : Effort.zero + effort = effort := by
  change Effort.mk (0 + effort.reads) (0 + effort.singleChecks) (0 + effort.bulkChecks)
    (0 + effort.computations) = effort
  simp only [Nat.zero_add]

theorem add_assoc (first second third : Effort) :
    first + second + third = first + (second + third) := by
  change Effort.mk _ _ _ _ = Effort.mk _ _ _ _
  congr 1 <;> exact Nat.add_assoc ..

structure Closed (holds : Effort → Prop) : Prop where
  zero : holds .zero
  add : ∀ {left right : Effort}, holds left → holds right → holds (left + right)

theorem Closed.bind {holds : Effort → Prop} (closed : Closed holds) {α β : Type} {first : Metered α}
    {next : α → Metered β} (starts : holds first.effort) (goes : ∀ value, holds (next value).effort) :
    holds (first >>= next).effort := by
  change holds (Metered.bind first next).effort
  unfold Metered.bind
  cases first.outcome with
  | error error => exact starts
  | ok value => exact closed.add starts (goes value)

structure OnlyBulk (effort : Effort) : Prop where
  reads : effort.reads = 0
  singleChecks : effort.singleChecks = 0

namespace OnlyBulk

theorem zero : Effort.zero.OnlyBulk :=
  ⟨rfl, rfl⟩

theorem add {left right : Effort} (first : left.OnlyBulk) (second : right.OnlyBulk) :
    (left + right).OnlyBulk where
  reads := by rw [reads_add, first.reads, second.reads]
  singleChecks := by rw [singleChecks_add, first.singleChecks, second.singleChecks]

theorem closed : Closed OnlyBulk :=
  ⟨zero, add⟩

theorem bind {α β : Type} {first : Metered α} {next : α → Metered β} (starts : first.effort.OnlyBulk)
    (goes : ∀ value, (next value).effort.OnlyBulk) : (first >>= next).effort.OnlyBulk :=
  closed.bind starts goes

theorem use {α : Type} {deployment : Deployment} {facility : Facility} {effort : Effort} {answer : α}
    (cost : effort.OnlyBulk) : (deployment.use facility effort answer).effort.OnlyBulk := by
  unfold Deployment.use
  cases deployment.failure? facility with
  | some failure => exact zero
  | none => exact cost

end OnlyBulk

def Unchecked (effort : Effort) : Prop :=
  effort.singleChecks = 0

theorem Unchecked.closed : Closed Unchecked where
  zero := rfl
  add {left right} first second := by
    change left.singleChecks + right.singleChecks = 0
    rw [first, second]

end Effort

namespace Metered

variable {α β γ : Type}

theorem pure_bind (value : α) (next : α → Metered β) :
    (Pure.pure value : Metered α) >>= next = next value := by
  change Metered.mk (next value).outcome (Effort.zero + (next value).effort) = next value
  rw [Effort.zero_add]

theorem bind_of_error {first : Metered α} {error : Error} (failed : first.outcome = .error error)
    (next : α → Metered β) : first >>= next = ⟨.error error, first.effort⟩ := by
  change Metered.bind first next = _
  rw [Metered.bind, failed]

theorem bind_of_ok {first : Metered α} {value : α} (answered : first.outcome = .ok value)
    (next : α → Metered β) :
    first >>= next = ⟨(next value).outcome, first.effort + (next value).effort⟩ := by
  change Metered.bind first next = _
  rw [Metered.bind, answered]

theorem bind_assoc (first : Metered α) (second : α → Metered β) (third : β → Metered γ) :
    first >>= second >>= third = first >>= fun value => second value >>= third := by
  cases answer : first.outcome with
  | error error => rw [bind_of_error answer, bind_of_error answer, bind_of_error rfl]
  | ok value =>
      rw [bind_of_ok answer, bind_of_ok answer]
      cases further : (second value).outcome with
      | error error => rw [bind_of_error further, bind_of_error rfl]
      | ok between => rw [bind_of_ok further, bind_of_ok rfl, Effort.add_assoc]

end Metered

namespace Scope

open Effort (OnlyBulk)

variable (deployment : Deployment) (user : UserId)

theorem effort_grantedCourses (candidates : List CourseId) (permission : Permission) :
    (grantedCourses deployment user candidates permission).effort.OnlyBulk := by
  unfold grantedCourses
  split
  · exact .zero
  · exact .bind (.use ⟨rfl, rfl⟩) fun matrix => .zero

theorem effort_defaultCourses (request : ScopeRequest) :
    (defaultCourses deployment user request).effort.OnlyBulk := by
  refine .bind (.use .zero) fun memberships => ?_
  split
  · exact .zero
  · cases request.permission with
    | participate => exact .zero
    | instruct => exact .zero
    | grant permission => exact effort_grantedCourses deployment user _ permission

theorem effort_side {α : Type} [DecidableEq α] [Ranked α] [Sharded α] (filter : Option (List α))
    {defaults : Metered (List α)} (cost : defaults.effort.OnlyBulk) :
    (side filter defaults).effort.OnlyBulk := by
  unfold side
  split
  · exact .zero
  · exact .bind cost fun ids => .zero

theorem effort_resolve (request : ScopeRequest) :
    (resolve deployment user request).effort.OnlyBulk :=
  .bind (effort_side _ (effort_defaultCourses deployment user request)) fun _ =>
    .bind (effort_side _ (.use .zero)) fun _ => .zero

end Scope

end Agenda
