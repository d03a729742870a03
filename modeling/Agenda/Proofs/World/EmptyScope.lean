import Agenda.Proofs.Effort
import Agenda.Proofs.World.Outage

/-!
Queries whose scope has nothing to look at. The cached form ends there and asks no shard. The whole
list is computed by way of the ignores of the user: it is empty too, but it costs one read of the
home shard of the user and fails when that shard is offline.
-/

namespace Agenda

theorem gather_of_isEmpty {ι κ : Type} [Listed ι] {partition : ShardPartition κ}
    (empty : partition.isEmpty = true) (step : ShardId → List κ → Metered (List ι)) :
    gather partition step = return [] := by
  have parts : partition.parts = [] := List.isEmpty_iff.mp empty
  have sorted : Listed.sort ([] : List ι) = [] := by simp [Listed.sort]
  rw [gather, parts, gatherParts, Metered.pure_bind, sorted]

namespace NeedsQuery

variable {query : NeedsQuery} {deployment : Deployment} {user : UserId} {options : NeedsOptions}
  {scope : Scope}

theorem list_outside (outside : query.isOutside scope = true) :
    query.list deployment user options scope = do
      let _ ← ignoredIds deployment user query.objectKind query.purpose options
      return [] := by
  have gathered {ι κ : Type} [Listed ι] (kind : ObjectKind) (purpose : Purpose)
      {partition : ShardPartition κ} (empty : partition.isEmpty = true)
      (step : List GlobalId → ShardId → List κ → Metered (List ι)) :
      (do
        let ignored ← ignoredIds deployment user kind purpose options
        gather partition (step ignored)) = do
        let _ ← ignoredIds deployment user kind purpose options
        return [] := by
    simp only [gather_of_isEmpty empty]
  cases query with
  | submitting kind choice => exact gathered kind.objectKind .submitting outside _
  | grading kind => exact gathered kind.objectKind .grading outside _
  | moderation =>
      have candidates : Moderation.candidates ⟨user, options⟩ deployment scope = _ :=
        gathered .assignment .moderation outside _
      change Moderation.list ⟨user, options⟩ deployment scope none = _
      rw [Moderation.list, candidates, Metered.bind_assoc]
      simp only [Metered.pure_bind]
      rfl
  | quizzes choice => exact gathered .quiz .submitting outside _
  | reviews => exact gathered .assessmentRequest .reviewing outside _
  | topics => exact gathered .discussionTopic .viewing (scope.byShard_isEmpty outside) _
  | pages => exact gathered .wikiPage .viewing (scope.byShard_isEmpty outside) _

def asksIgnores (query : NeedsQuery) (config : Config) (options : NeedsOptions) : Bool :=
  !query.isDisabled config && !options.includeIgnored

/-- What the whole list comes to outside the scope. -/
def emptyOutcome (query : NeedsQuery) (deployment : Deployment) (user : UserId)
    (options : NeedsOptions) : Except Error (List query.Item) :=
  if query.asksIgnores deployment.config options ∧ user.shard ∈ deployment.offline then
    .error (user.shard.unreachable none)
  else .ok []

theorem ignoredIds_included (included : options.includeIgnored = true) (kind : ObjectKind)
    (purpose : Purpose) : ignoredIds deployment user kind purpose options = return [] := by
  rw [ignoredIds, if_pos included]

theorem ignoredIds_limited (deployment : Deployment) (user : UserId)
    (limited : options.includeIgnored = false) (kind : ObjectKind) (purpose : Purpose) :
    (ignoredIds deployment user kind purpose options).effort = { reads := 1 } ∧
      (ignoredIds deployment user kind purpose options).outcome =
        (deployment.read user.shard).outcome.map fun _ =>
          deployment.ignored user kind purpose options := by
  constructor
  · rw [ignoredIds, if_neg (by simp [limited]), Deployment.readIgnores, Metered.bind_assoc]
    cases answer : (deployment.read user.shard).outcome with
    | error error =>
        rw [Metered.bind_of_error answer]
        rfl
    | ok tables =>
        rw [Metered.bind_of_ok answer]
        rfl
  · have asked : deployment.reachIgnores user options =
        (deployment.read user.shard).outcome.map fun _ => () := by
      rw [Deployment.reachIgnores, if_neg (by simp [limited])]
    rw [outcome_ignoredIds_eq, asked]
    cases (deployment.read user.shard).outcome <;> rfl

theorem run_outside (resolved : (query.scope deployment user options).outcome = .ok scope)
    (outside : query.isOutside scope = true) :
    (query.run deployment user options).outcome = query.emptyOutcome deployment user options ∧
      (query.run deployment user options).effort.reads =
        (if query.asksIgnores deployment.config options then 1 else 0) ∧
      (query.run deployment user options).effort.singleChecks = 0 := by
  have scoping : (query.scope deployment user options).effort.OnlyBulk :=
    Scope.effort_resolve deployment user _
  cases disabled : query.isDisabled deployment.config with
  | true =>
      rw [run, if_pos disabled, emptyOutcome]
      simp only [asksIgnores, disabled, Bool.not_true, Bool.false_and, Bool.false_eq_true, false_and,
        if_false]
      exact ⟨rfl, rfl, rfl⟩
  | false =>
      rw [run, if_neg (by simp [disabled]), Metered.bind_of_ok resolved, list_outside outside]
      simp only [emptyOutcome, asksIgnores, disabled, Bool.not_false, Bool.true_and, Effort.reads_add,
        Effort.singleChecks_add, scoping.reads, scoping.singleChecks, Nat.zero_add]
      cases included : options.includeIgnored with
      | true =>
          rw [ignoredIds_included included, Metered.pure_bind]
          exact ⟨by simp, rfl, rfl⟩
      | false =>
          obtain ⟨cost, answer⟩ :=
            ignoredIds_limited deployment user included query.objectKind query.purpose
          by_cases offline : user.shard ∈ deployment.offline
          · rw [Deployment.outcome_read_unreachable offline] at answer
            rw [Metered.bind_of_error answer, cost]
            simp [offline]
          · rw [deployment.outcome_read offline] at answer
            rw [Metered.bind_of_ok answer, cost]
            exact ⟨by simp [offline], rfl, rfl⟩

end NeedsQuery

namespace World

def spend (world : World) (effort : Effort) : World :=
  { world with memory := { world.memory with effort := world.memory.effort + effort } }

namespace Step

variable {world : World} {query : NeedsQuery} {user : UserId} {options : NeedsOptions}

theorem perform_cached : (Step.cached query user options).perform world =
    ((query.runCached world.deployment user options world.memory).1,
      { world with memory := (query.runCached world.deployment user options world.memory).2 }) :=
  rfl

theorem perform_listed (keep : List (List GlobalId)) (limit : Option Nat) :
    (Step.listed query user options keep limit).perform world =
      (((query.run world.deployment user options).outcome.map fun items =>
          limit.elim (keepIds keep items) (keepIds keep items).take).mapError .failed,
        world.spend (query.run world.deployment user options).effort) := by
  change Action.bind (.ofMetered fun deployment => query.run deployment user options) _ world = _
  simp only [Action.bind, Action.ofMetered, Action.ofSession, Session.ofMetered]
  cases (query.run world.deployment user options).outcome <;> rfl

theorem perform_anyListed (keep : List (List GlobalId)) :
    (Step.anyListed query user options keep).perform world =
      (((query.run world.deployment user options).outcome.map fun items =>
          !(keepIds keep items).isEmpty).mapError .failed,
        world.spend (query.run world.deployment user options).effort) := by
  change Action.bind (.ofMetered fun deployment => query.run deployment user options) _ world = _
  simp only [Action.bind, Action.ofMetered, Action.ofSession, Session.ofMetered]
  cases (query.run world.deployment user options).outcome <;> rfl

theorem keepIds_nil {ι : Type} [Listed ι] (keep : List (List GlobalId)) :
    keepIds keep ([] : List ι) = [] := by
  rw [keepIds, keepAll_eq_filter, List.filter_nil]

end Step

/-- A user in whose scope a query has nothing to look at. Through the cache the query answers with
nothing, whatever is offline, reads nothing and leaves the cache alone. The whole list and the
question whether there is any item come to nothing as well and leave the cache alone, but unless
ignores are included or the query is switched off they read the home shard of the user once, and fail
if it is offline. -/
theorem empty_scope_cost (world : World) (query : NeedsQuery) (user : UserId) (options : NeedsOptions)
    {scope : Scope} (resolved : (query.scope world.deployment user options).outcome = .ok scope)
    (outside : query.isOutside scope = true) :
    (∃ effort : Effort, effort.OnlyBulk ∧
      (Step.cached query user options).perform world = (.ok [], world.spend effort)) ∧
    ∃ effort : Effort,
      effort.reads = (if query.asksIgnores world.deployment.config options then 1 else 0) ∧
      effort.singleChecks = 0 ∧
      ∀ keep limit,
        (Step.listed query user options keep limit).perform world =
          ((query.emptyOutcome world.deployment user options).mapError .failed, world.spend effort) ∧
        (Step.anyListed query user options keep).perform world =
          (((query.emptyOutcome world.deployment user options).map fun _ => false).mapError .failed,
            world.spend effort) := by
  constructor
  · rw [Step.perform_cached]
    cases disabled : query.isDisabled world.deployment.config with
    | true =>
        rw [NeedsQuery.runCached_disabled disabled]
        exact ⟨.zero, .zero, rfl⟩
    | false =>
        rw [NeedsQuery.runCached_outside disabled resolved outside]
        exact ⟨_, Scope.effort_resolve world.deployment user (options.scopeRequest query.permission),
          rfl⟩
  · obtain ⟨outcome, reads, checks⟩ := NeedsQuery.run_outside resolved outside
    refine ⟨_, reads, checks, fun keep limit => ?_⟩
    rw [Step.perform_listed, Step.perform_anyListed, outcome, NeedsQuery.emptyOutcome]
    split
    · exact ⟨rfl, rfl⟩
    · have none : limit.elim ([] : List query.Item) ([] : List query.Item).take = [] := by
        cases limit <;> simp
      simp only [Except.map, Step.keepIds_nil, none]
      exact ⟨rfl, rfl⟩

def newcomer : UserId :=
  ⟨⟨10000000000042, by decide⟩⟩

def blank : World :=
  start {} [] practice.deployment.now {}

def blankOffline : World :=
  blank.after (.takeOffline newcomer.shard)

theorem empty_scope_cost_newcomer :
    ((Step.cached .topics newcomer .default).perform blankOffline).1 = .ok [] ∧
    (blankOffline.after (.cached .topics newcomer .default)).memory.effort.reads = 0 ∧
    ((Step.listed .topics newcomer .default [] none).perform blankOffline).1 =
      .error (.failed (newcomer.shard.unreachable none)) ∧
    (blankOffline.after (.listed .topics newcomer .default [] none)).memory.effort.reads = 1 := by
  obtain ⟨⟨spent, bulk, cached⟩, effort, reads, -, forms⟩ :=
    @empty_scope_cost blankOffline .topics newcomer .default ⟨.empty, .empty⟩ rfl rfl
  obtain ⟨listed, -⟩ := forms [] none
  refine ⟨?_, ?_, ?_, ?_⟩
  · rw [cached]
  · rw [after, cached]
    exact (Nat.zero_add _).trans bulk.reads
  · rw [listed]
    rfl
  · rw [after, listed]
    exact (Nat.zero_add _).trans reads

/-- Nothing to look at, and yet the whole list and the question whether there is any item cost a read
and can fail. -/
theorem whole_list_reads_home :
    ((NeedsQuery.quizzes {}).scope blank.deployment newcomer .default).outcome =
      .ok ⟨.empty, .empty⟩ ∧
    (NeedsQuery.quizzes {}).isOutside ⟨.empty, .empty⟩ = true ∧
    (blank.after (.listed (.quizzes {}) newcomer .default [] none)).memory.effort.reads = 1 ∧
    (blank.after (.anyListed (.quizzes {}) newcomer .default [])).memory.effort.reads = 1 ∧
    ((Step.listed (.quizzes {}) newcomer .default [] none).perform blankOffline).1 ≠ .ok [] ∧
    ((Step.anyListed (.quizzes {}) newcomer .default []).perform blankOffline).1 ≠ .ok false := by
  refine ⟨rfl, rfl, rfl, rfl, ?_, ?_⟩
  · rintro ⟨⟩
  · rintro ⟨⟩

end World

end Agenda
