import Agenda.Proofs.Dashboard.SameRows
import Agenda.Proofs.Needs.GradingCount

/-!
The order of rows never shows. Worlds that hold the same rows in different orders answer every step
the same and count the same, and hold the same rows afterwards; so a run looks the same in both.
-/

namespace Agenda

namespace World

structure SameRows (left right : World) : Prop where
  deployment : left.deployment.SameRows right.deployment
  memory : left.memory = right.memory

namespace Action

variable {α β : Type}

/-- In worlds with the same rows the action answers the same, and leaves them with the same rows. -/
def OrderBlind (action : Action α) : Prop :=
  ∀ left right : World, left.SameRows right →
    (action left).1 = (action right).1 ∧ (action left).2.SameRows (action right).2

namespace OrderBlind

theorem pure (value : α) : OrderBlind (Action.pure value) :=
  fun _ _ same => ⟨rfl, same⟩

theorem bind {first : Action α} {next : α → Action β} (blind : OrderBlind first)
    (goes : ∀ value, OrderBlind (next value)) : OrderBlind (Action.bind first next) := by
  intro left right same
  obtain ⟨answers, after⟩ := blind left right same
  simp only [Action.bind]
  generalize first left = done at answers after ⊢
  generalize first right = doneOther at answers after ⊢
  obtain ⟨outcome, world⟩ := done
  obtain ⟨outcomeOther, worldOther⟩ := doneOther
  cases answers
  cases outcome with
  | error stop => exact ⟨rfl, after⟩
  | ok value => exact goes value world worldOther after

theorem ofSession {session : Deployment → Session α}
    (equal : ∀ left right, Deployment.SameRows left right → session left = session right) :
    OrderBlind (Action.ofSession session) := by
  rintro left right ⟨deployments, memories⟩
  have same : session left.deployment left.memory = session right.deployment right.memory := by
    rw [equal _ _ deployments, memories]
  have answers := congrArg Prod.fst same
  have after := congrArg Prod.snd same
  exact ⟨answers, deployments, after⟩

theorem ofMetered {computation : Deployment → Metered α}
    (equal : ∀ left right, Deployment.SameRows left right → computation left = computation right) :
    OrderBlind (Action.ofMetered computation) :=
  ofSession fun left right same => by rw [equal left right same]

theorem change {edit : Deployment → Deployment}
    (keeps : ∀ left right, Deployment.SameRows left right → (edit left).SameRows (edit right)) :
    OrderBlind (Action.change edit) :=
  fun _ _ same => ⟨rfl, keeps _ _ same.deployment, same.memory⟩

theorem editIgnores (facility : Facility) {edit : List Ignore → α × List Ignore}
    (answers : ∀ rows others : List Ignore, rows.Perm others → (edit rows).1 = (edit others).1)
    (perm : ∀ rows others : List Ignore, rows.Perm others → (rows.map Ignore.identity).Nodup →
      (edit rows).2.Perm (edit others).2)
    (once : ∀ rows : List Ignore, (rows.map Ignore.identity).Nodup →
      ((edit rows).2.map Ignore.identity).Nodup) :
    OrderBlind (Action.editIgnores facility edit) := by
  intro left right same
  have stored := same.deployment
  have ignores := stored.tables.ignores
  simp only [Action.editIgnores, stored.failure?]
  cases right.deployment.failure? facility with
  | some failure => exact ⟨rfl, same⟩
  | none =>
      refine ⟨congrArg Except.ok (answers _ _ ignores), ?_, same.memory⟩
      exact {
        keys := { stored.keys with ignores := once _ stored.keys.ignores }
        tables := { stored.tables with ignores := perm _ _ ignores stored.keys.ignores }
        grants := stored.grants
        offline := stored.offline
        outages := stored.outages
        now := stored.now
        config := stored.config }

end OrderBlind

end Action

theorem touch_orderBlind (user : UserId) : (touch user).OrderBlind :=
  .ofSession fun _ _ same => same.touch user

theorem touchAll_orderBlind (users : List UserId) : (touchAll users).OrderBlind := by
  induction users with
  | nil => exact .pure ()
  | cons user rest ih => exact (touch_orderBlind user).bind fun _ => ih

theorem ignore_orderBlind (row : Ignore) : (ignore row).OrderBlind := by
  refine .bind (.editIgnores .saveIgnore (fun _ _ _ => rfl) ?_ ?_) fun _ =>
    (touch_orderBlind row.user).bind fun _ => .pure row
  · exact fun rows others perm once => row.upsert_perm perm once
  · exact fun rows once => row.nodup_upsert once

theorem clearOnChange_orderBlind (asset : Asset) (purpose : Purpose) :
    (clearOnChange asset purpose).OrderBlind := by
  refine .bind (.editIgnores .clearIgnores ?_ ?_ ?_) fun users =>
    (touchAll_orderBlind users).bind fun _ => .pure users
  · intro rows others perm
    exact Ranked.sortedDistinct_perm ((perm.filter _).map _)
  · intro rows others perm once
    exact perm.filter _
  · intro rows once
    exact once.sublist (List.filter_sublist.map _)

theorem advance_orderBlind (span : Duration) : (advance span).OrderBlind := by
  intro left right same
  have stored := same.deployment
  simp only [World.advance, stored.now]
  split
  · exact ⟨rfl, same⟩
  · exact ⟨rfl, { stored with now := rfl }, same.memory⟩

namespace Step

def isTableAccess : Step → Bool
  | .insert _ _ | .replace _ _ | .readTable _ => true
  | _ => false

theorem perform_orderBlind {step : Step} (apart : step.isTableAccess = false) :
    step.perform.OrderBlind := by
  cases step with
  | cached query user options =>
      exact .ofSession fun _ _ same => query.runCached_sameRows same user options
  | listed query user options keep limit =>
      exact .bind (.ofMetered fun _ _ same => query.run_sameRows same user options) fun items =>
        .pure _
  | anyListed query user options keep =>
      exact .bind (.ofMetered fun _ _ same => query.run_sameRows same user options) fun items =>
        .pure _
  | dashboard user limits =>
      exact .ofSession fun _ _ same => TodoList.build_sameRows same limits user
  | resolve user request => exact .ofMetered fun _ _ same => same.resolve user request
  | ignore row => exact ignore_orderBlind row
  | clearOnChange asset purpose => exact clearOnChange_orderBlind asset purpose
  | touch user => exact touch_orderBlind user
  | token user => exact .ofSession fun _ _ same => same.readToken user
  | readEntry key => exact .ofSession fun _ _ same => same.readEntry key
  | writeEntry key value lifetime =>
      exact .ofSession fun _ _ same => same.writeEntry key value lifetime
  | fetch request result => exact .ofSession fun _ _ same => same.fetch request _
  | fetchIds request result => exact .ofSession fun _ _ same => same.fetch request _
  | advance span => exact advance_orderBlind span
  | setClock instant => exact .change fun _ _ same => { same with now := rfl }
  | takeOffline shard =>
      exact .change fun _ _ same => { same with offline := congrArg (shard :: ·) same.offline }
  | breakDown facility failure =>
      exact .change fun _ _ same =>
        { same with outages := congrArg ((facility, failure) :: ·) same.outages }
  | heal => exact .change fun _ _ same => { same with outages := rfl }
  | insert table row => cases apart
  | replace table rows => cases apart
  | readTable table => cases apart

end Step

structure Observation where
  step : Step
  answer : Except Stop step.Answer
  reads : Nat
  writes : Nat
  singleChecks : Nat
  bulkChecks : Nat

def observe (world : World) (step : Step) : Observation where
  step := step
  answer := (step.perform world).1
  reads := (world.after step).memory.effort.reads
  writes := (world.after step).memory.cache.writes
  singleChecks := (world.after step).memory.effort.singleChecks
  bulkChecks := (world.after step).memory.effort.bulkChecks

def observations : World → List Step → List Observation
  | _, [] => []
  | world, step :: rest => world.observe step :: observations (world.after step) rest

theorem observe_sameRows {left right : World} (same : left.SameRows right) {step : Step}
    (apart : step.isTableAccess = false) :
    left.observe step = right.observe step ∧ (left.after step).SameRows (right.after step) := by
  obtain ⟨answers, after⟩ := Step.perform_orderBlind apart left right same
  refine ⟨?_, after⟩
  have memories : (left.after step).memory = (right.after step).memory := after.memory
  simp only [observe, answers, memories]

/-- A run that leaves the tables to the world looks the same whatever the order of their rows. -/
theorem observations_sameRows (left right : World) (same : left.SameRows right) (steps : List Step)
    (apart : ∀ step ∈ steps, step.isTableAccess = false) :
    left.observations steps = right.observations steps := by
  induction steps generalizing left right with
  | nil => rfl
  | cons step rest ih =>
      obtain ⟨first, after⟩ := observe_sameRows same (apart step List.mem_cons_self)
      have others := ih _ _ after fun later member => apart later (List.mem_cons_of_mem _ member)
      rw [observations, observations, first, others]

def forwardClass : World :=
  ⟨NeedsQuery.splitClass, .empty⟩

def backwardClass : World :=
  let tables := NeedsQuery.splitClass.tables
  ⟨{ NeedsQuery.splitClass with
    tables := { tables with
      submissions := tables.submissions.reverse
      enrollments := tables.enrollments.reverse } }, .empty⟩

theorem sameRows_backwardClass : forwardClass.SameRows backwardClass where
  deployment := {
    keys := {
      courses := by decide
      groups := by decide
      assignments := by decide
      submissions := by decide
      overrides := by decide
      quizzes := by decide
      peerReviews := by decide
      topics := by decide
      pages := by decide
      ignores := by decide }
    tables := { Tables.SameRows.refl forwardClass.deployment.tables with
      submissions := (List.reverse_perm _).symm
      enrollments := (List.reverse_perm _).symm }
    grants := .refl _
    offline := rfl
    outages := rfl
    now := rfl
    config := rfl }
  memory := rfl

theorem observations_sameRows_class :
    let ignored : Ignore := ⟨classUser, ⟨.assignment, essay.id.global⟩, .grading, false⟩
    let steps : List Step := [.dashboard classUser {}, .ignore ignored,
      .cached (.grading .assignment) classUser hundred,
      .clearOnChange ignored.asset ignored.purpose,
      .listed (.grading .assignment) classUser hundred [] none]
    forwardClass.deployment.tables.enrollments ≠ backwardClass.deployment.tables.enrollments ∧
      forwardClass.observations steps = backwardClass.observations steps := by
  intro ignored steps
  exact ⟨by decide, observations_sameRows forwardClass backwardClass sameRows_backwardClass steps
    (by simp [steps, Step.isTableAccess])⟩

end World

end Agenda
