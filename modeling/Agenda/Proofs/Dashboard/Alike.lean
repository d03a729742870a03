import Agenda.Proofs.Cache.Alike
import Agenda.Proofs.Dashboard.Calls

/-!
Queries and dashboards in caches that are alike for a user. Those of the user come to the same,
whatever others ignore; those of somebody else leave the caches alike.
-/

namespace Agenda

section Sessions

variable {deployment : Deployment} {rows : List Ignore} {user owner : UserId} {texts : List String}
  {options : NeedsOptions} {α : Type}

theorem NeedsQuery.runCached_alike
    (same : (rows.filter fun row => row.user = user) =
      deployment.tables.ignores.filter fun row => row.user = user)
    {query : NeedsQuery} {memory other : Memory}
    (alike : memory.cache.AlikeFor user texts other.cache)
    (hashed : Lookup.hashedTexts ⟨deployment, memory, query, user, options⟩ ⊆ texts) :
    (query.runCached deployment user options memory).1 =
        (query.runCached (deployment.withIgnores rows) user options other).1 ∧
      (query.runCached deployment user options memory).2.cache.AlikeFor user texts
        (query.runCached (deployment.withIgnores rows) user options other).2.cache := by
  have scopes : (query.scope (deployment.withIgnores rows) user options).outcome =
      (query.scope deployment user options).outcome := rfl
  cases enabled : query.isDisabled deployment.config with
  | true =>
      have still : query.isDisabled (deployment.withIgnores rows).config = true := enabled
      rw [runCached_disabled enabled, runCached_disabled still]
      exact ⟨rfl, alike⟩
  | false =>
      have still : query.isDisabled (deployment.withIgnores rows).config = false := enabled
      cases resolved : (query.scope deployment user options).outcome with
      | error error =>
          rw [runCached_unresolved enabled resolved,
            runCached_unresolved still (scopes.trans resolved)]
          exact ⟨rfl, alike⟩
      | ok scope =>
          cases outside : query.isOutside scope with
          | true =>
              rw [runCached_outside enabled resolved outside,
                runCached_outside still (scopes.trans resolved) outside]
              exact ⟨rfl, alike⟩
          | false =>
              have asks : Lookup.Asks ⟨deployment, memory, query, user, options⟩ scope :=
                ⟨enabled, resolved, outside⟩
              rw [runCached_inside enabled resolved outside,
                runCached_inside still (scopes.trans resolved) outside]
              exact CacheRequest.fetch_alike rfl rfl
                (outcome_firstItems_withIgnores same query options scope).symm alike
                fun works => Lookup.hashedTexts_of_asks asks works ▸ hashed

theorem NeedsQuery.runCached_spares (free : Sha256.CollisionFree texts) (foreign : owner ≠ user)
    {query : NeedsQuery} {memory : Memory}
    (hashed : Lookup.hashedTexts ⟨deployment, memory, query, owner, options⟩ ⊆ texts) :
    (query.runCached deployment owner options memory).2.cache.AlikeFor user texts memory.cache := by
  let call : Lookup := ⟨deployment, memory, query, owner, options⟩
  change call.result.2.cache.AlikeFor user texts memory.cache
  rcases call.asks_or_idle with ⟨scope, asks⟩ | ⟨unchanged, -⟩
  · rw [Lookup.result_of_asks asks]
    exact CacheRequest.fetch_spares free foreign fun works =>
      Lookup.hashedTexts_of_asks asks works ▸ hashed
  · rw [unchanged]
    exact .refl _

def Session.Agree (deployment : Deployment) (user : UserId) (options : NeedsOptions)
    (texts : List String) (queries : List NeedsQuery) (first second : Session α) : Prop :=
  ∀ memory other : Memory, memory.cache.AlikeFor user texts other.cache →
    (lookups deployment user options queries memory).flatMap Event.hashedTexts ⊆ texts →
      (first memory).1 = (second other).1 ∧
        (first memory).2.cache.AlikeFor user texts (second other).2.cache

theorem Session.Agree.bind
    (same : (rows.filter fun row => row.user = user) =
      deployment.tables.ignores.filter fun row => row.user = user)
    {query : NeedsQuery} {rest : List NeedsQuery} {next further : List query.Item → Session α}
    (goes : ∀ items, Agree deployment user options texts rest (next items) (further items)) :
    Agree deployment user options texts (query :: rest)
      (query.runCached deployment user options >>= next)
      (query.runCached (deployment.withIgnores rows) user options >>= further) := by
  intro memory other alike hashed
  rw [lookups, List.flatMap_cons] at hashed
  obtain ⟨first, others⟩ := List.append_subset.mp hashed
  obtain ⟨outcomes, caches⟩ := NeedsQuery.runCached_alike same alike first
  rcases result : query.runCached deployment user options memory with ⟨outcome, after⟩
  rcases resultOther : query.runCached (deployment.withIgnores rows) user options other with
    ⟨outcomeOther, afterOther⟩
  have called : (⟨deployment, memory, query, user, options⟩ : Lookup).result = (outcome, after) :=
    result
  rw [result, resultOther] at outcomes caches
  cases outcomes
  change (Session.bind (query.runCached deployment user options) next memory).1 =
      (Session.bind (query.runCached (deployment.withIgnores rows) user options) further other).1 ∧
    (Session.bind (query.runCached deployment user options) next memory).2.cache.AlikeFor user texts
      (Session.bind (query.runCached (deployment.withIgnores rows) user options) further other).2.cache
  simp only [Session.bind, result, resultOther]
  rw [called] at others
  cases outcome with
  | error stop => exact ⟨rfl, caches⟩
  | ok items => exact goes items after afterOther caches others

theorem Session.Agree.last {first second : Session α}
    (outcomes : ∀ memory other, (first memory).1 = (second other).1)
    (firstCache : ∀ memory, (first memory).2.cache = memory.cache)
    (secondCache : ∀ memory, (second memory).2.cache = memory.cache) :
    Agree deployment user options texts [] first second := fun memory other alike _ =>
  ⟨outcomes memory other, by rwa [firstCache, secondCache]⟩

def Session.Spares (user : UserId) (texts : List String) (deployment : Deployment) (owner : UserId)
    (options : NeedsOptions) (queries : List NeedsQuery) (session : Session α) : Prop :=
  ∀ memory : Memory,
    (lookups deployment owner options queries memory).flatMap Event.hashedTexts ⊆ texts →
      (session memory).2.cache.AlikeFor user texts memory.cache

theorem Session.Spares.bind (free : Sha256.CollisionFree texts) (foreign : owner ≠ user)
    {query : NeedsQuery} {rest : List NeedsQuery} {next : List query.Item → Session α}
    (goes : ∀ items, Spares user texts deployment owner options rest (next items)) :
    Spares user texts deployment owner options (query :: rest)
      (query.runCached deployment owner options >>= next) := by
  intro memory hashed
  rw [lookups, List.flatMap_cons] at hashed
  obtain ⟨first, others⟩ := List.append_subset.mp hashed
  have spared := NeedsQuery.runCached_spares free foreign first
  rcases result : query.runCached deployment owner options memory with ⟨outcome, after⟩
  have called : (⟨deployment, memory, query, owner, options⟩ : Lookup).result = (outcome, after) :=
    result
  rw [result] at spared
  change (Session.bind (query.runCached deployment owner options) next memory).2.cache.AlikeFor user
    texts memory.cache
  simp only [Session.bind, result]
  rw [called] at others
  cases outcome with
  | error stop => exact spared
  | ok items => exact (goes items after others).trans spared

theorem Session.Spares.last {session : Session α}
    (unchanged : ∀ memory, (session memory).2.cache = memory.cache) :
    Spares user texts deployment owner options [] session := fun memory _ => by
  rw [unchanged]
  exact .refl _

end Sessions

namespace TodoList

variable {deployment : Deployment} {rows : List Ignore} {user owner : UserId} {texts : List String}
  {limits : DashboardLimits}

theorem readNames_withIgnores (parts : List (ShardId × List Context)) :
    (readNames (deployment.withIgnores rows) parts).outcome = (readNames deployment parts).outcome := by
  induction parts with
  | nil => rfl
  | cons part rest ih =>
      obtain ⟨shard, contexts⟩ := part
      simp only [readNames, Metered.outcome_bind, Deployment.readCourses, ih,
        Deployment.outcome_read_withIgnores]
      cases (deployment.read shard).outcome <;> rfl

theorem finish_withIgnores (grading moderation submitting : List AssignmentTodo)
    (reviewing : List PeerReviewTodo) (memory other : Memory) :
    (finish deployment limits user grading moderation submitting reviewing memory).1 =
      (finish (deployment.withIgnores rows) limits user grading moderation submitting reviewing
        other).1 := by
  rw [finish_outcome, finish_outcome]
  simp only [readNames_withIgnores]
  rfl

/-- The dashboard of a user comes to the same in alike caches, whatever others ignore. -/
theorem build_agree
    (same : (rows.filter fun row => row.user = user) =
      deployment.tables.ignores.filter fun row => row.user = user) :
    Session.Agree deployment user { limit := some limits.fetch } texts queries
      (build deployment limits user) (build (deployment.withIgnores rows) limits user) := by
  rw [build_eq_calls, build_eq_calls]
  exact .bind same fun plainGrading => .bind same fun checkpointGrading =>
    .bind same fun moderation => .bind same fun plainSubmitting =>
    .bind same fun checkpointSubmitting => .bind same fun reviewing =>
    .last (finish_withIgnores _ _ _ _) finish_cache finish_cache

theorem build_spares (free : Sha256.CollisionFree texts) (foreign : owner ≠ user) :
    Session.Spares user texts deployment owner { limit := some limits.fetch } queries
      (build deployment limits owner) := by
  rw [build_eq_calls]
  exact .bind free foreign fun plainGrading => .bind free foreign fun checkpointGrading =>
    .bind free foreign fun moderation => .bind free foreign fun plainSubmitting =>
    .bind free foreign fun checkpointSubmitting => .bind free foreign fun reviewing =>
    .last finish_cache

end TodoList

end Agenda
