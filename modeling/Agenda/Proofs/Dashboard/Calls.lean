import Agenda.Proofs.World.Source

/-!
What a dashboard makes of the answers to its six calls. What is expected of the calls is stated once
for all queries; a dashboard then promises something about its entries.
-/

namespace Agenda

section Sessions

variable {deployment : Deployment} {user : UserId} {options : NeedsOptions} {α : Type}
  {expects : (query : NeedsQuery) → Except Stop (List query.Item) → Prop}
  {holds : Except Stop α → Prop}

/-- A session that comes to something that holds, if each of its calls comes to what is expected. -/
def Session.Promises (deployment : Deployment) (user : UserId) (options : NeedsOptions)
    (expects : (query : NeedsQuery) → Except Stop (List query.Item) → Prop)
    (queries : List NeedsQuery) (session : Session α) (holds : Except Stop α → Prop) : Prop :=
  ∀ memory : Memory,
    (∀ call : Lookup, .lookup call ∈ lookups deployment user options queries memory →
      expects call.query call.result.1) →
    holds (session memory).1

theorem Session.Promises.bind {query : NeedsQuery} {rest : List NeedsQuery}
    {next : List query.Item → Session α}
    (goes : ∀ items, expects query (.ok items) →
      (next items).Promises deployment user options expects rest holds)
    (stops : ∀ stop, expects query (.error stop) → holds (.error stop)) :
    (query.runCached deployment user options >>= next).Promises deployment user options expects
      (query :: rest) holds := by
  intro memory expected
  rcases result : query.runCached deployment user options memory with ⟨outcome, after⟩
  have called : (⟨deployment, memory, query, user, options⟩ : Lookup).result = (outcome, after) :=
    result
  have first := expected ⟨deployment, memory, query, user, options⟩ List.mem_cons_self
  rw [called] at first
  change holds (Session.bind (query.runCached deployment user options) next memory).1
  cases outcome with
  | error stop =>
      simp only [Session.bind, result]
      exact stops stop first
  | ok items =>
      simp only [Session.bind, result]
      refine goes items first after fun call member => expected call ?_
      rw [lookups, called]
      exact List.mem_cons_of_mem _ member

theorem Session.Promises.last {session : Session α} (always : ∀ memory, holds (session memory).1) :
    session.Promises deployment user options expects [] holds :=
  fun memory _ => always memory

end Sessions

namespace TodoList

variable (deployment : Deployment) (limits : DashboardLimits) (user : UserId)
  (grading moderation submitting : List AssignmentTodo) (reviewing : List PeerReviewTodo)

def contextsOf : List Context :=
  sortedDistinct ((grading ++ moderation ++ submitting).map Listed.context ++
    reviewing.map Listed.context)

def ofItems (matrix : PermissionMatrix) (courses : List Course) : TodoList where
  entries
    | .grading => (grading.filter fun item =>
        matrix.allowsAny (Listed.context item) gradingPermissions).map
          (TodoEntry.ofAssignment .grading (nameIn courses))
    | .moderation => moderation.map (TodoEntry.ofAssignment .moderation (nameIn courses))
    | .submitting => submitting.map (TodoEntry.ofAssignment .submitting (nameIn courses))
    | .reviewing => reviewing.map (TodoEntry.ofReview (nameIn courses))
  visibleLimit := limits.visible

structure Fetched where
  grading : List AssignmentTodo
  moderation : List AssignmentTodo
  submitting : List AssignmentTodo
  reviewing : List PeerReviewTodo

def fetch (options : NeedsOptions) : Session Fetched := do
  let grading ← fetchGrading deployment user options
  let moderation : List AssignmentTodo ← NeedsQuery.runCached .moderation deployment user options
  let submitting ← fetchSubmitting deployment user options
  let reviewing : List PeerReviewTodo ← NeedsQuery.runCached .reviews deployment user options
  return ⟨grading, moderation, submitting, reviewing⟩

def finish : Session TodoList := do
  let contexts := contextsOf grading moderation submitting reviewing
  let matrix ← Session.ofMetered (gradingMatrix deployment user contexts)
  let courses ← Session.ofMetered (readNames deployment (ShardPartition.ofList contexts).parts)
  return ofItems limits grading moderation submitting reviewing matrix courses

/-- A dashboard is its six calls and what follows from their answers. -/
theorem build_eq_calls :
    build deployment limits user =
      (NeedsQuery.grading .assignment).runCached deployment user { limit := some limits.fetch } >>=
        fun (plainGrading : List AssignmentTodo) =>
      (NeedsQuery.grading .subAssignment).runCached deployment user { limit := some limits.fetch } >>=
        fun (checkpointGrading : List AssignmentTodo) =>
      NeedsQuery.moderation.runCached deployment user { limit := some limits.fetch } >>=
        fun (moderation : List AssignmentTodo) =>
      (NeedsQuery.submitting .assignment {}).runCached deployment user
          { limit := some limits.fetch } >>= fun (plainSubmitting : List AssignmentTodo) =>
      (NeedsQuery.submitting .subAssignment {}).runCached deployment user
          { limit := some limits.fetch } >>= fun (checkpointSubmitting : List AssignmentTodo) =>
      NeedsQuery.reviews.runCached deployment user { limit := some limits.fetch } >>=
        fun (reviewing : List PeerReviewTodo) =>
      finish deployment limits user
        (merge { limit := some limits.fetch } plainGrading checkpointGrading) moderation
        (merge { limit := some limits.fetch } plainSubmitting checkpointSubmitting) reviewing := by
  change fetchGrading deployment user _ >>= _ = _
  rw [fetchGrading, Session.bind_assoc]
  refine congrArg (Session.bind _) (funext fun plainGrading => ?_)
  rw [Session.bind_assoc]
  refine congrArg (Session.bind _) (funext fun checkpointGrading => ?_)
  change Session.bind (NeedsQuery.moderation.runCached deployment user _) _ = _
  refine congrArg (Session.bind _) (funext fun moderation => ?_)
  rw [fetchSubmitting, Session.bind_assoc]
  refine congrArg (Session.bind _) (funext fun plainSubmitting => ?_)
  rw [Session.bind_assoc]
  rfl

theorem build_eq_fetch :
    build deployment limits user = fetch deployment user { limit := some limits.fetch } >>=
      fun fetched => finish deployment limits user fetched.grading fetched.moderation
        fetched.submitting fetched.reviewing := by
  rw [fetch, Session.bind_assoc]
  refine congrArg (Session.bind _) (funext fun grading => ?_)
  refine Eq.trans ?_ (Session.bind_assoc (NeedsQuery.moderation.runCached deployment user _) _ _).symm
  refine congrArg (Session.bind _) (funext fun moderation => ?_)
  rw [Session.bind_assoc]
  refine congrArg (Session.bind _) (funext fun submitting => ?_)
  refine Eq.trans ?_ (Session.bind_assoc (NeedsQuery.reviews.runCached deployment user _) _ _).symm
  rfl

theorem finish_outcome (memory : Memory) :
    (finish deployment limits user grading moderation submitting reviewing memory).1 =
      ((gradingMatrix deployment user
        (contextsOf grading moderation submitting reviewing)).outcome.bind fun matrix =>
        (readNames deployment (ShardPartition.ofList
          (contextsOf grading moderation submitting reviewing)).parts).outcome.map fun courses =>
            ofItems limits grading moderation submitting reviewing matrix courses).mapError
              .failed := by
  unfold finish
  simp only [bind, Session.bind, Session.ofMetered]
  cases (gradingMatrix deployment user
    (contextsOf grading moderation submitting reviewing)).outcome with
  | error error => rfl
  | ok matrix =>
      simp only [Except.mapError, Except.bind]
      cases (readNames deployment (ShardPartition.ofList
        (contextsOf grading moderation submitting reviewing)).parts).outcome <;> rfl

variable {deployment limits user grading moderation submitting reviewing}

theorem finish_cache (memory : Memory) :
    (finish deployment limits user grading moderation submitting reviewing memory).2.cache =
      memory.cache :=
  Session.ofMetered_bind_cache (fun _ _ => Session.ofMetered_bind_cache (fun _ _ => rfl) _) memory

theorem ofItems_of_finish {memory : Memory} {list : TodoList}
    (finished : (finish deployment limits user grading moderation submitting reviewing memory).1 =
      .ok list) :
    ∃ matrix courses, list = ofItems limits grading moderation submitting reviewing matrix courses := by
  rw [finish_outcome] at finished
  obtain ⟨matrix, -, named⟩ := bind_eq_ok.mp (mapError_eq_ok.mp finished)
  obtain ⟨courses, -, same⟩ := map_eq_ok.mp named
  exact ⟨matrix, courses, same.symm⟩

variable {expects : (query : NeedsQuery) → Except Stop (List query.Item) → Prop}
  {options : NeedsOptions}

/-- What six answers make of a dashboard holds, if every call comes to what is expected. -/
theorem build_promises {holds : Except Stop TodoList → Prop}
    (goes : ∀ (plainGrading checkpointGrading moderation plainSubmitting checkpointSubmitting :
        List AssignmentTodo) (reviewing : List PeerReviewTodo),
      expects (.grading .assignment) (.ok plainGrading) →
      expects (.grading .subAssignment) (.ok checkpointGrading) →
      expects .moderation (.ok moderation) →
      expects (.submitting .assignment {}) (.ok plainSubmitting) →
      expects (.submitting .subAssignment {}) (.ok checkpointSubmitting) →
      expects .reviews (.ok reviewing) →
      ∀ memory, holds (finish deployment limits user
        (merge { limit := some limits.fetch } plainGrading checkpointGrading) moderation
        (merge { limit := some limits.fetch } plainSubmitting checkpointSubmitting) reviewing
        memory).1)
    (stops : ∀ query stop, expects query (.error stop) → holds (.error stop)) :
    (build deployment limits user).Promises deployment user { limit := some limits.fetch } expects
      queries holds := by
  rw [build_eq_calls]
  refine .bind (fun plainGrading first => ?_) (stops _)
  refine .bind (fun checkpointGrading second => ?_) (stops _)
  refine .bind (fun moderation third => ?_) (stops _)
  refine .bind (fun plainSubmitting fourth => ?_) (stops _)
  refine .bind (fun checkpointSubmitting fifth => ?_) (stops _)
  refine .bind (fun reviewing sixth => .last fun memory => ?_) (stops _)
  exact goes _ _ _ _ _ _ first second third fourth fifth sixth memory

theorem mem_of_merge {first second : List AssignmentTodo} {item : AssignmentTodo}
    (member : item ∈ merge options first second) : item ∈ first ∨ item ∈ second := by
  have whole : item ∈ Listed.sort (first ++ second) := by
    rw [merge, NeedsQuery.truncate_eq_elim] at member
    cases bound : options.limit with
    | none => simpa [bound] using member
    | some limit =>
        rw [bound] at member
        exact List.mem_of_mem_take member
  exact List.mem_append.mp ((List.mergeSort_perm _ _).mem_iff.mp whole)

theorem entries_from_calls {good : ObjectKind → Purpose → GlobalId → Prop} {memory : Memory}
    {list : TodoList}
    (answered : ∀ call : Lookup,
      .lookup call ∈ lookups deployment user { limit := some limits.fetch } queries memory →
      ∀ items, call.result.1 = .ok items →
        ∀ item ∈ items, good (call.query.kindOf item) call.query.purpose (Listed.id item))
    (built : (build deployment limits user memory).1 = .ok list) :
    ∀ category, ∀ shown ∈ list.entries category, good shown.kind shown.purpose shown.id := by
  let expects (query : NeedsQuery) (outcome : Except Stop (List query.Item)) : Prop :=
    ∀ items, outcome = .ok items →
      ∀ item ∈ items, good (query.kindOf item) query.purpose (Listed.id item)
  let holds (outcome : Except Stop TodoList) : Prop :=
    ∀ list, outcome = .ok list →
      ∀ category, ∀ shown ∈ list.entries category, good shown.kind shown.purpose shown.id
  have promised : (build deployment limits user).Promises deployment user
      { limit := some limits.fetch } expects queries holds := by
    refine build_promises ?_ ?_
    · intro plainGrading checkpointGrading moderation plainSubmitting checkpointSubmitting reviewing
        first second third fourth fifth sixth memory list finished category shown member
      obtain ⟨matrix, courses, rfl⟩ := ofItems_of_finish finished
      cases category with
      | grading =>
          obtain ⟨item, permitted, rfl⟩ := List.mem_map.mp member
          rcases mem_of_merge (List.mem_filter.mp permitted).1 with plain | checkpoint
          · exact first _ rfl item plain
          · exact second _ rfl item checkpoint
      | moderation =>
          obtain ⟨item, listed, rfl⟩ := List.mem_map.mp member
          exact third _ rfl item listed
      | submitting =>
          obtain ⟨item, listed, rfl⟩ := List.mem_map.mp member
          rcases mem_of_merge listed with plain | checkpoint
          · exact fourth _ rfl item plain
          · exact fifth _ rfl item checkpoint
      | reviewing =>
          obtain ⟨item, listed, rfl⟩ := List.mem_map.mp member
          exact sixth _ rfl item listed
    · intro query stop _ list stopped
      cases stopped
  exact promised memory answered list built

end TodoList

namespace Lookup

theorem hashedTexts_elsewhere (call : Lookup) {memory : Memory}
    (same : memory.cache.tokens call.user = call.token) :
    (call.elsewhere call.deployment memory).hashedTexts = call.hashedTexts := by
  have tokens : (call.elsewhere call.deployment memory).token = call.token := same
  unfold hashedTexts
  rw [tokens]
  rfl

end Lookup

def TodoList.hashedTexts (deployment : Deployment) (memory : Memory) (user : UserId)
    (options : NeedsOptions) : List String :=
  queries.flatMap fun query => Lookup.hashedTexts ⟨deployment, memory, query, user, options⟩

theorem TodoList.lookups_hashedTexts {deployment : Deployment} {user : UserId}
    {options : NeedsOptions} {memory start : Memory}
    (tokens : memory.cache.tokens user = start.cache.tokens user) :
    (lookups deployment user options queries memory).flatMap Event.hashedTexts ⊆
      hashedTexts deployment start user options := by
  intro text hashed
  obtain ⟨event, member, own⟩ := List.mem_flatMap.mp hashed
  obtain ⟨query, listed, reached, kept, rfl⟩ := of_mem_lookups member
  let call : Lookup := ⟨deployment, reached, query, user, options⟩
  have same : (call.elsewhere deployment start).hashedTexts = call.hashedTexts :=
    call.hashedTexts_elsewhere (by rw [← tokens, ← kept]; rfl)
  exact List.mem_flatMap.mpr ⟨query, listed, same ▸ own⟩

namespace Lookup

theorem unstored_of_mem_lookups {deployment : Deployment} {user : UserId} {options : NeedsOptions}
    {queries : List NeedsQuery} {memory : Memory} {texts : List String} (distinct : queries.Nodup)
    (free : Sha256.CollisionFree texts)
    (hashed : (lookups deployment user options queries memory).flatMap Event.hashedTexts ⊆ texts)
    (others : ∀ key entry, memory.cache.entries key = some entry →
      ∃ earlier : Lookup, earlier.Stores key entry ∧ earlier.query ∉ queries ∧
        earlier.hashedTexts ⊆ texts)
    {call : Lookup} (member : .lookup call ∈ lookups deployment user options queries memory)
    {scope : Scope} (asks : call.Asks scope) (reached : deployment.failure? .readToken = none) :
    call.memory.cache.entries ((call.request scope).key call.token) = none := by
  induction queries generalizing memory with
  | nil => cases member
  | cons query rest ih =>
      let first : Lookup := ⟨deployment, memory, query, user, options⟩
      obtain ⟨fresh, restDistinct⟩ := List.nodup_cons.mp distinct
      rw [lookups, List.flatMap_cons] at hashed
      obtain ⟨ownHashed, restHashed⟩ := List.append_subset.mp hashed
      simp only [lookups, List.mem_cons] at member
      rcases member with same | later
      · obtain rfl := Event.lookup.inj same
        rw [Option.eq_none_iff_forall_ne_some]
        intro entry stored
        obtain ⟨earlier, stores, other, earlierHashed⟩ := others _ _ stored
        have together := free.subset (List.append_subset.mpr ⟨earlierHashed, ownHashed⟩)
        exact other (query_eq_of_stores stores asks reached together ▸ List.mem_cons_self)
      · split at later
        · rename_i items after result
          simp only [result] at restHashed
          refine ih restDistinct restHashed (fun key entry stored => ?_) later
          have answered : first.result = (.ok items, after) := result
          rcases first.cache_after.2 key entry (by rwa [answered]) with before | now
          · obtain ⟨earlier, stores, other, earlierHashed⟩ := others _ _ before
            exact ⟨earlier, stores, fun among => other (List.mem_cons_of_mem _ among), earlierHashed⟩
          · exact ⟨first, now, fresh, ownHashed⟩
        · cases later

theorem result_of_mem_lookups {deployment : Deployment} (working : deployment.outages = [])
    (online : deployment.offline = [])
    (representable : deployment.now.add? (.ofSeconds deployment.config.cacheSeconds) ≠ none)
    {user : UserId} {options : NeedsOptions} {queries : List NeedsQuery} {memory : Memory}
    (distinct : queries.Nodup)
    (free : Sha256.CollisionFree
      ((lookups deployment user options queries memory).flatMap Event.hashedTexts))
    (empty : ∀ key, memory.cache.entries key = none) {call : Lookup}
    (member : .lookup call ∈ lookups deployment user options queries memory) :
    call.result.1 =
      (call.query.load deployment user options call.query.leftIn options.limit).outcome.mapError
        .failed := by
  have works := fun facility => Deployment.failure?_eq_none working facility
  have unstored {scope : Scope} (asks : call.Asks scope) :=
    unstored_of_mem_lookups distinct free (List.Subset.refl _)
      (fun key entry stored => by simp [empty] at stored) member asks (works .readToken)
  have home : user.shard ∉ deployment.offline := by simp [online]
  obtain ⟨query, -, reached, -, same⟩ := of_mem_lookups member
  obtain rfl := Event.lookup.inj same
  refine NeedsQuery.runCached_eq_load_of_missing (fun facility _ => works facility) ?_ representable ?_
  · intro scope enabled resolved inside
    refine CacheRequest.found?_eq_none_of_unexpired fun entry stored => ?_
    have none := unstored ⟨enabled, resolved, inside⟩
    exact nomatch none.symm.trans stored
  · exact fun scope _ _ => .inr home

end Lookup

theorem TodoList.gradingMatrix_served {deployment : Deployment}
    (working : deployment.failure? .checkMany = none) (user : UserId) (contexts : List Context) :
    ∃ matrix, (gradingMatrix deployment user contexts).outcome = .ok matrix := by
  unfold gradingMatrix
  split
  · exact ⟨_, rfl⟩
  · exact ⟨_, Deployment.outcome_use working _ _⟩

theorem TodoList.outcome_readNames {deployment : Deployment} (online : deployment.offline = [])
    (parts : List (ShardId × List Context)) :
    (readNames deployment parts).outcome = .ok (parts.flatMap fun part =>
      deployment.tables.courses.filter fun row =>
        row.id.shard = part.1 && (part.2.filterMap Context.course?).contains row.id) := by
  induction parts with
  | nil => rfl
  | cons part rest ih =>
      obtain ⟨shard, contexts⟩ := part
      have reachable : shard ∉ deployment.offline := by simp [online]
      simp [readNames, Deployment.readCourses, deployment.outcome_read reachable, ih, Except.bind]

section Served

variable {deployment : Deployment} (working : deployment.outages = [])
  (online : deployment.offline = [])
include working online

theorem NeedsQuery.outcome_firstItems_served (query : NeedsQuery) (user : UserId)
    (options : NeedsOptions) (scope : Scope) :
    ∃ items, (query.firstItems deployment user options scope).outcome = .ok items := by
  rw [outcome_firstItems_eq, access_online online query user options scope]
  exact choose_served (Deployment.failure?_eq_none working .checkOne) options.limit _

variable (representable : deployment.now.add? (.ofSeconds deployment.config.cacheSeconds) ≠ none)
include representable

theorem Lookup.result_served (memory : Memory) (query : NeedsQuery) (user : UserId)
    (options : NeedsOptions) :
    ∃ items, (⟨deployment, memory, query, user, options⟩ : Lookup).result.1 = .ok items := by
  let call : Lookup := ⟨deployment, memory, query, user, options⟩
  have works := fun facility => Deployment.failure?_eq_none working facility
  change ∃ items, call.result.1 = .ok items
  cases enabled : query.isDisabled deployment.config with
  | true => exact ⟨[], by rw [result, NeedsQuery.runCached_disabled enabled]⟩
  | false =>
      obtain ⟨scope, resolved⟩ := Scope.outcome_resolve_served working user
        (options.scopeRequest query.permission)
      cases outside : query.isOutside scope with
      | true => exact ⟨[], by rw [result, NeedsQuery.runCached_outside enabled resolved outside]⟩
      | false =>
          have asks : call.Asks scope := ⟨enabled, resolved, outside⟩
          obtain ⟨items, computed⟩ :=
            NeedsQuery.outcome_firstItems_served working online query user options scope
          cases found : call.found? scope with
          | some answer =>
              rw [result_of_asks asks]
              exact ⟨answer, CacheRequest.fetch_fst_of_found (works .readToken) (works .readEntry) found⟩
          | none =>
              have misses : call.Misses scope items := ⟨asks, works .readToken, found, computed⟩
              exact ⟨items, answered_of_misses misses (works .readEntry) (works .writeEntry)
                representable⟩

/-- In a deployment that is in order a dashboard is always built, whatever is in the cache. -/
theorem TodoList.build_served (limits : DashboardLimits) (user : UserId) (memory : Memory) :
    ∃ list, (build deployment limits user memory).1 = .ok list := by
  let expects (query : NeedsQuery) (outcome : Except Stop (List query.Item)) : Prop :=
    ∃ items, outcome = .ok items
  let holds (outcome : Except Stop TodoList) : Prop := ∃ list, outcome = .ok list
  have promised : (build deployment limits user).Promises deployment user
      { limit := some limits.fetch } expects queries holds := by
    refine build_promises ?_ ?_
    · intro plainGrading checkpointGrading moderation plainSubmitting checkpointSubmitting reviewing
        _ _ _ _ _ _ memory
      obtain ⟨matrix, checked⟩ := gradingMatrix_served (Deployment.failure?_eq_none working _) user
        (contextsOf (merge { limit := some limits.fetch } plainGrading checkpointGrading) moderation
          (merge { limit := some limits.fetch } plainSubmitting checkpointSubmitting) reviewing)
      rw [finish_outcome, checked, Except.bind, outcome_readNames online]
      exact ⟨_, rfl⟩
    · rintro query stop ⟨items, came⟩
      cases came
  refine promised memory fun call member => ?_
  obtain ⟨query, -, reached, -, same⟩ := of_mem_lookups member
  obtain rfl := Event.lookup.inj same
  exact Lookup.result_served working online representable reached query _ _

end Served

end Agenda
