import Agenda.Proofs.Dashboard.Definition
import Agenda.Proofs.Needs.Reads
import Agenda.Proofs.Needs.Unrestricted
import Agenda.Proofs.World.Completeness
import Agenda.Proofs.World.Expiry

/-!
Reads are bounded by shards, not by rows: those of a cached query, and those of a dashboard on top of its
six queries.
-/

namespace Agenda

open Metered (Reads)

namespace Session

variable {α β : Type}

theorem ofMetered_pure (value : α) : ofMetered (Pure.pure value) = Pure.pure value :=
  rfl

theorem ofMetered_bind (first : Metered α) (next : α → Metered β) :
    ofMetered (first >>= next) = ofMetered first >>= fun value => ofMetered (next value) := by
  funext memory
  change ofMetered (first >>= next) memory = Session.bind _ _ memory
  cases answer : first.outcome with
  | error error =>
      rw [Metered.bind_of_error answer]
      simp only [ofMetered, Session.bind, answer, Except.mapError]
  | ok value =>
      rw [Metered.bind_of_ok answer]
      simp only [ofMetered, Session.bind, answer, Except.mapError, Effort.add_assoc]

end Session

namespace TodoList

variable {deployment : Deployment} {limits : DashboardLimits} {user : UserId}

def Fetched.courses (fetched : Fetched) : List CourseId :=
  (fetched.grading ++ fetched.moderation ++ fetched.submitting).map (·.assignment.course) ++
    fetched.reviewing.map (·.request.course)

theorem reads_readNames (online : deployment.offline = []) (parts : List (ShardId × List Context)) :
    Reads parts.length parts.length (readNames deployment parts) := by
  induction parts with
  | nil => exact .pure []
  | cons part rest ih =>
      have reachable : part.1 ∉ deployment.offline := by simp [online]
      refine .mono (.bind (Deployment.reads_rows reachable _) fun first =>
        .bind ih fun others => .pure (first ++ others)) ?_ ?_
      · simp only [List.length_cons]
        omega
      · simp only [List.length_cons]
        omega

theorem length_parts_fetched (fetched : Fetched) :
    (ShardPartition.ofList (contextsOf fetched.grading fetched.moderation fetched.submitting
      fetched.reviewing)).parts.length = (fetched.courses.map Id.shard).dedup.length := by
  let contexts := contextsOf fetched.grading fetched.moderation fetched.submitting fetched.reviewing
  have members (context : Context) :
      context ∈ (ShardPartition.ofList contexts).toList ↔ context ∈ fetched.courses.map .course := by
    have courses : fetched.courses.map .course =
        (fetched.grading ++ fetched.moderation ++ fetched.submitting).map Listed.context ++
          fetched.reviewing.map Listed.context := by
      simp only [Fetched.courses, List.map_append, List.map_map]
      rfl
    rw [ShardPartition.mem_toList_ofList, courses]
    exact Ranked.mem_sortedDistinct
  have counted : (ShardPartition.ofList contexts).shardCount =
      ((fetched.courses.map Context.course).map Sharded.shard).dedup.length :=
    (ShardPartition.wellFormed_ofList contexts).shardCount_eq members
  rw [List.map_map] at counted
  exact counted

theorem finish_eq (fetched : Fetched) :
    finish deployment limits user fetched.grading fetched.moderation fetched.submitting
      fetched.reviewing = Session.ofMetered (do
        let contexts := contextsOf fetched.grading fetched.moderation fetched.submitting fetched.reviewing
        let matrix ← gradingMatrix deployment user contexts
        let courses ← readNames deployment (ShardPartition.ofList contexts).parts
        return ofItems limits fetched.grading fetched.moderation fetched.submitting fetched.reviewing
          matrix courses) := by
  simp only [Session.ofMetered_bind, Session.ofMetered_pure]
  rfl

section Finish

variable (fetched : Fetched) (memory : Memory)

theorem unread_gradingMatrix (contexts : List Context) :
    (gradingMatrix deployment user contexts).effort.Unread := by
  unfold gradingMatrix
  split
  · rfl
  · exact Deployment.unread_use rfl

theorem reads_finish (online : deployment.offline = []) (working : deployment.failure? .checkMany = none) :
    (∃ list, (finish deployment limits user fetched.grading fetched.moderation fetched.submitting
      fetched.reviewing memory).1 = .ok list) ∧
    (finish deployment limits user fetched.grading fetched.moderation fetched.submitting
      fetched.reviewing memory).2.effort.reads =
        memory.effort.reads + (fetched.courses.map Id.shard).dedup.length := by
  let contexts := contextsOf fetched.grading fetched.moderation fetched.submitting fetched.reviewing
  have checked : Reads 0 0 (gradingMatrix deployment user contexts) :=
    ⟨gradingMatrix_served working user contexts, Nat.zero_le _, (unread_gradingMatrix contexts).le⟩
  have named := reads_readNames online (ShardPartition.ofList contexts).parts
  rw [length_parts_fetched] at named
  have whole := checked.bind fun matrix => named.bind fun courses => .pure (ofItems limits fetched.grading
    fetched.moderation fetched.submitting fetched.reviewing matrix courses)
  rw [Nat.zero_add, Nat.add_zero] at whole
  rw [finish_eq]
  constructor
  · obtain ⟨list, answer⟩ := whole.answered
    refine ⟨list, ?_⟩
    change Except.mapError Stop.failed _ = _
    rw [answer, Except.mapError]
  · exact congrArg (memory.effort.reads + ·) (le_antisymm whole.atMost whole.atLeast)

theorem reads_finish_refused {failure : ServiceFailure}
    (broken : deployment.failure? .checkMany = some failure) :
    (finish deployment limits user fetched.grading fetched.moderation fetched.submitting
      fetched.reviewing memory).2.effort.reads = memory.effort.reads := by
  let contexts := contextsOf fetched.grading fetched.moderation fetched.submitting fetched.reviewing
  rw [finish_eq]
  refine (congrArg (memory.effort.reads + ·) ?_).trans (Nat.add_zero _)
  cases nothing : contexts.isEmpty with
  | true =>
      simp only [show contextsOf _ _ _ _ = [] from List.isEmpty_iff.mp nothing]
      rfl
  | false =>
      have refused : (gradingMatrix deployment user contexts).outcome = .error failure.toError := by
        rw [gradingMatrix, if_neg (by simp [nothing]), Deployment.checkMany, Deployment.use, broken]
        rfl
      rw [Metered.bind_of_error refused]
      exact unread_gradingMatrix contexts

end Finish

/-- A dashboard reads what its calls read, and for what they fetched one shard after the other. -/
theorem reads_build (online : deployment.offline = []) (working : deployment.failure? .checkMany = none)
    {memory : Memory} {fetched : Fetched}
    (came : (fetch deployment user { limit := some limits.fetch } memory).1 = .ok fetched) :
    (∃ list, (build deployment limits user memory).1 = .ok list) ∧
    (build deployment limits user memory).2.effort.reads =
      (afterLookups deployment user { limit := some limits.fetch } queries memory).effort.reads +
        (fetched.courses.map Id.shard).dedup.length := by
  rw [build_eq_fetch, ← fetch_leaves]
  rcases called : fetch deployment user { limit := some limits.fetch } memory with ⟨outcome, after⟩
  obtain rfl : outcome = .ok fetched := by rwa [called] at came
  simp only [bind, Session.bind, called]
  exact reads_finish fetched after online working

theorem reads_build_refused {memory : Memory}
    (refused : (∃ stop, (fetch deployment user { limit := some limits.fetch } memory).1 = .error stop) ∨
      deployment.failure? .checkMany ≠ none) :
    (build deployment limits user memory).2.effort.reads =
      (afterLookups deployment user { limit := some limits.fetch } queries memory).effort.reads := by
  rw [build_eq_fetch, ← fetch_leaves]
  rcases called : fetch deployment user { limit := some limits.fetch } memory with ⟨outcome, after⟩
  cases outcome with
  | error stop => simp only [bind, Session.bind, called]
  | ok fetched =>
      rcases refused with ⟨stop, stopped⟩ | broken
      · rw [called] at stopped
        cases stopped
      · obtain ⟨failure, broken⟩ := Option.ne_none_iff_exists'.mp broken
        simp only [bind, Session.bind, called]
        exact reads_finish_refused fetched after broken

theorem fetched_of_build {memory : Memory} {list : TodoList}
    (built : (build deployment limits user memory).1 = .ok list) :
    ∃ fetched, (fetch deployment user { limit := some limits.fetch } memory).1 = .ok fetched := by
  rw [build_eq_fetch] at built
  rcases called : fetch deployment user { limit := some limits.fetch } memory with ⟨outcome, after⟩
  cases outcome with
  | error stop =>
      simp only [bind, Session.bind, called] at built
      cases built
  | ok fetched => exact ⟨fetched, rfl⟩

end TodoList

namespace Lookup

variable {call : Lookup} {scope : Scope}

theorem reads_afterScope (call : Lookup) :
    (call.query.afterScope call.deployment call.user call.options call.memory).effort.reads =
      call.memory.effort.reads :=
  (congrArg (call.memory.effort.reads + ·) (Scope.effort_resolve call.deployment call.user _).reads).trans
    (Nat.add_zero _)

theorem reads_of_missing (online : call.deployment.offline = []) (asks : call.Asks scope)
    (readToken : call.deployment.failure? .readToken = none)
    (readEntry : call.deployment.failure? .readEntry = none) (missing : call.found? scope = none) :
    ∃ reads, call.result.2.effort.reads = call.memory.effort.reads + reads ∧
      call.options.ignoreReads + call.query.shardsTouched scope ≤ reads ∧
      reads ≤ call.options.ignoreReads + call.query.readsPerShard * call.query.shardsTouched scope := by
  refine ⟨(call.query.firstItems call.deployment call.user call.options scope).effort.reads, ?_, ?_⟩
  · rw [effort_of_missing asks readToken readEntry missing, Effort.reads_add]
    exact congrArg (· + _) call.reads_afterScope
  · rw [← NeedsQuery.length_shards asks.resolved]
    exact NeedsQuery.reads_firstItems online

theorem reads_of_found (asks : call.Asks scope) {items : List call.query.Item}
    (found : call.found? scope = some items) :
    call.result.2.effort.reads = call.memory.effort.reads := by
  have reached := fetched_of_asks asks
  generalize call.result = result at reached ⊢
  cases reached with
  | refused failure broken => exact call.reads_afterScope
  | hit result _ _ => exact call.reads_afterScope
  | failed error _ missing _ => exact nomatch found.symm.trans missing
  | unwritten result stop _ missing _ _ => exact nomatch found.symm.trans missing
  | missed result expiry _ missing _ _ => exact nomatch found.symm.trans missing

theorem reads_of_idle
    (idle : call.query.isDisabled call.deployment.config = true ∨
      ∃ scope, call.scope = .ok scope ∧ call.query.isOutside scope = true) :
    call.result.2.effort.reads = call.memory.effort.reads := by
  cases enabled : call.query.isDisabled call.deployment.config with
  | true => rw [result, NeedsQuery.runCached_disabled enabled]
  | false =>
      obtain ⟨scope, resolved, outside⟩ := idle.resolve_left (by simp [enabled])
      rw [result, NeedsQuery.runCached_outside enabled resolved outside]
      exact call.reads_afterScope

end Lookup

namespace Deployment

/-- With no shard offline, a cached query that finds nothing in its scope reads the ignores unless they
are included, and each shard of the scope at least once and as often as its steps at most, whatever the
tables hold. A query that finds a result, has nothing to look at or is switched off reads nothing. A
dashboard whose six queries answer reads, on top of them, each shard of the courses of what they fetched
once, if the permissions can be checked; else it reads nothing more. -/
theorem reads_bounded (deployment : Deployment) (online : deployment.offline = []) (memory : Memory)
    (user : UserId) :
    (∀ (query : NeedsQuery) (options : NeedsOptions),
      let call : Lookup := ⟨deployment, memory, query, user, options⟩
      (∀ scope, call.Asks scope → deployment.failure? .readToken = none →
        deployment.failure? .readEntry = none → call.found? scope = none →
          ∃ reads, call.result.2.effort.reads = memory.effort.reads + reads ∧
            options.ignoreReads + query.shardsTouched scope ≤ reads ∧
            reads ≤ options.ignoreReads + query.readsPerShard * query.shardsTouched scope) ∧
      (∀ scope items, call.Asks scope → call.found? scope = some items →
        call.result.2.effort.reads = memory.effort.reads) ∧
      (∀ scope, call.scope = .ok scope → query.isOutside scope = true →
        call.result.2.effort.reads = memory.effort.reads) ∧
      (query.isDisabled deployment.config = true →
        call.result.2.effort.reads = memory.effort.reads)) ∧
    ∀ limits : DashboardLimits,
      let options : NeedsOptions := { limit := some limits.fetch }
      let called := afterLookups deployment user options TodoList.queries memory
      let built := TodoList.build deployment limits user memory
      (∀ fetched, (TodoList.fetch deployment user options memory).1 = .ok fetched →
        deployment.failure? .checkMany = none →
          (∃ list, built.1 = .ok list) ∧
          built.2.effort.reads = called.effort.reads + (fetched.courses.map Id.shard).dedup.length) ∧
      ((∃ stop, (TodoList.fetch deployment user options memory).1 = .error stop) ∨
        deployment.failure? .checkMany ≠ none → built.2.effort.reads = called.effort.reads) := by
  refine ⟨fun query options => ?_, fun limits => ?_⟩
  · intro call
    refine ⟨fun scope asks readToken readEntry missing => ?_, fun scope items asks found => ?_,
      fun scope resolved outside => ?_, fun disabled => ?_⟩
    · exact call.reads_of_missing online asks readToken readEntry missing
    · exact call.reads_of_found asks found
    · exact call.reads_of_idle (.inr ⟨scope, resolved, outside⟩)
    · exact call.reads_of_idle (.inl disabled)
  · intro options called built
    exact ⟨fun fetched came working => TodoList.reads_build online working came,
      TodoList.reads_build_refused⟩

/-- Two essays on two shards: a student's list costs from three to nine reads. -/
theorem reads_bounded_essays :
    let student : UserId := ⟨⟨7, by decide⟩⟩
    let physics : CourseId := ⟨⟨1, by decide⟩⟩
    let history : CourseId := ⟨⟨10000000000001, by decide⟩⟩
    let noon : Instant := ⟨⟨2026, 1, 11, by decide⟩, 43200, 0, by decide, by decide⟩
    let deployment : Deployment := {
      tables := {
        memberships := [⟨student, [⟨physics, .student, .active, false⟩,
          ⟨history, .student, .active, false⟩], []⟩]
        assignments := [NeedsQuery.essayFor ⟨⟨10, by decide⟩⟩ physics noon,
          NeedsQuery.essayFor ⟨⟨10000000000010, by decide⟩⟩ history noon] }
      grants := []
      offline := []
      outages := []
      now := noon
      config := {} }
    let query : NeedsQuery := .submitting .assignment {}
    let options : NeedsOptions := {}
    let limits : DashboardLimits := {}
    (∃ reads, (⟨deployment, .empty, query, student, options⟩ : Lookup).result.2.effort.reads =
      Memory.empty.effort.reads + reads ∧ 3 ≤ reads ∧ reads ≤ 9) ∧
    ∃ fetched, (TodoList.fetch deployment student { limit := some limits.fetch } .empty).1 =
        .ok fetched ∧
      (TodoList.build deployment limits student .empty).2.effort.reads =
        (afterLookups deployment student { limit := some limits.fetch } TodoList.queries
          .empty).effort.reads + (fetched.courses.map Id.shard).dedup.length := by
  intro student physics history noon deployment query options limits
  obtain ⟨bound, dashboard⟩ := reads_bounded deployment rfl .empty student
  let scope : Scope := ⟨.ofList [physics, history], .empty⟩
  have touched : query.shardsTouched scope = 2 := by decide
  obtain ⟨reads, cost, atLeast, atMost⟩ := (bound query options).1 scope ⟨rfl, rfl, rfl⟩ rfl rfl rfl
  rw [touched] at atLeast atMost
  have representable : deployment.now.add? (.ofSeconds deployment.config.cacheSeconds) ≠ none := by decide
  obtain ⟨list, built⟩ := TodoList.build_served rfl rfl representable limits student .empty
  obtain ⟨fetched, came⟩ := TodoList.fetched_of_build built
  exact ⟨⟨reads, cost, atLeast, atMost⟩, fetched, came, ((dashboard limits).1 fetched came rfl).2⟩

end Deployment

end Agenda
