import Agenda.Proofs.Needs.Item
import Agenda.Proofs.Needs.Query

/-!
The two forms of a query agree: what is read through the cache and not found there is the beginning
of the whole list, without finished reviews, or the same error.
-/

namespace Agenda

section Lists

variable {ι κ : Type}

@[simp] theorem keepAll_nil (items : List ι) : keepAll [] items = items :=
  rfl

theorem keepAll_eq_filter (predicates : List (ι → Bool)) (items : List ι) :
    keepAll predicates items = items.filter fun item => predicates.all fun keep => keep item := by
  induction predicates generalizing items with
  | nil => simp [keepAll]
  | cons keep rest ih =>
      have later := ih (items.filter keep)
      rw [keepAll] at later ⊢
      simp only [List.foldl_cons, later, List.filter_filter, List.all_cons, Bool.and_comm]

theorem filterMap_filter_of_agree {keep : ι → Bool} {test : κ → Bool} {change : κ → Option ι}
    (agree : ∀ source item, change source = some item → keep item = test source)
    (sources : List κ) :
    (sources.filter test).filterMap change = (sources.filterMap change).filter keep := by
  induction sources with
  | nil => rfl
  | cons source rest ih =>
      cases changed : change source with
      | none => by_cases passes : test source = true <;> simp [passes, changed, ih]
      | some item =>
          have same := agree source item changed
          by_cases passes : test source = true <;> simp [passes, changed, ih, same]

end Lists

section Checks

variable {ι : Type} {check : ι → Metered Bool} {passes : ι → Bool}

theorem outcome_keepPassing (answers : ∀ item, (check item).outcome = .ok (passes item))
    (cap : Option Nat) (items : List ι) :
    (keepPassing check cap items).outcome =
      .ok (cap.elim (items.filter passes) (items.filter passes).take) := by
  induction items generalizing cap with
  | nil => cases cap with
    | none => rfl
    | some count => cases count <;> rfl
  | cons item rest ih =>
      cases cap with
      | none =>
          rw [keepPassing]
          · by_cases passed : passes item = true <;>
              simp [answers, passed, ih, Except.bind]
          · exact fun filled => nomatch filled
      | some count =>
          cases count with
          | zero => rfl
          | succ count =>
              rw [keepPassing]
              · by_cases passed : passes item = true <;>
                  simp [answers, passed, ih, Except.bind]
              · exact fun filled => nomatch filled

end Checks

section Gathering

variable {ι κ : Type} {step other : ShardId → List κ → Metered (List ι)} {keep : ι → Bool}

theorem outcome_gatherParts_filter
    (filtered : ∀ shard ids, (other shard ids).outcome = (step shard ids).outcome.map (List.filter keep))
    (parts : List (ShardId × List κ)) :
    (gatherParts other parts).outcome = (gatherParts step parts).outcome.map (List.filter keep) := by
  induction parts with
  | nil => rfl
  | cons part rest ih =>
      obtain ⟨shard, ids⟩ := part
      simp only [gatherParts, Metered.outcome_bind, Metered.outcome_onShard, Metered.outcome_pure,
        filtered, ih]
      cases (step shard ids).outcome with
      | error error => rfl
      | ok first =>
          cases (gatherParts step rest).outcome with
          | error error => rfl
          | ok others => simp [Except.map, Except.mapError, Except.bind]

theorem outcome_gather_filter [Listed ι]
    (filtered : ∀ shard ids, (other shard ids).outcome = (step shard ids).outcome.map (List.filter keep))
    (partition : ShardPartition κ) :
    (gather partition other).outcome = (gather partition step).outcome.map (List.filter keep) := by
  simp only [gather, Metered.outcome_bind, Metered.outcome_pure,
    outcome_gatherParts_filter filtered]
  cases (gatherParts step partition.parts).outcome with
  | error error => rfl
  | ok items => simp [Except.map, Except.bind, Listed.filter_sort]

theorem outcome_gather_of_isEmpty [Listed ι] {partition : ShardPartition κ}
    (empty : partition.isEmpty = true) : (gather partition step).outcome = .ok [] := by
  have parts : partition.parts = [] := by simpa [ShardPartition.isEmpty] using empty
  simp [gather, parts, gatherParts, Except.bind, Listed.sort]

end Gathering

namespace Deployment

variable (deployment : Deployment) {shard : ShardId}

theorem outcome_read (online : shard ∉ deployment.offline) :
    (deployment.read shard).outcome = .ok deployment.tables := by
  simp [read, online]

theorem outcome_readAssignments (online : shard ∉ deployment.offline) (query : AssignmentQuery) :
    ∃ rows, (deployment.readAssignments shard query).outcome = .ok rows := by
  simp [readAssignments, deployment.outcome_read online, Except.bind]

theorem outcome_readSubmissions (online : shard ∉ deployment.offline)
    (assignments : List AssignmentId) (user : Option UserId) :
    ∃ rows, (deployment.readSubmissions shard assignments user).outcome = .ok rows := by
  simp [readSubmissions, deployment.outcome_read online, Except.bind]

theorem outcome_readEnrollments (online : shard ∉ deployment.offline) (courses : List CourseId) :
    ∃ rows, (deployment.readEnrollments shard courses).outcome = .ok rows := by
  simp [readEnrollments, deployment.outcome_read online, Except.bind]

end Deployment

theorem outcome_ignoredIds {deployment : Deployment} {user : UserId} {options : NeedsOptions}
    (readable : options.includeIgnored = true ∨ user.shard ∉ deployment.offline)
    (kind : ObjectKind) (purpose : Purpose) :
    ∃ ids, (ignoredIds deployment user kind purpose options).outcome = .ok ids := by
  unfold ignoredIds
  rcases readable with included | online
  · exact ⟨[], by simp [included]⟩
  · by_cases included : options.includeIgnored = true
    · exact ⟨[], by simp [included]⟩
    · simp [included, Deployment.readIgnores, Deployment.read, online, Except.bind]

namespace Reviews

variable (query : Reviews) (deployment : Deployment)

def isUnfinished (item : PeerReviewTodo) : Bool :=
  item.request.state = .assigned

theorem request_of_item? {assignments : List Assignment} {submissions : List Submission}
    {enrollments : List Enrollment} {request : PeerReview} {item : PeerReviewTodo}
    (listed : query.item? assignments submissions enrollments request = some item) :
    item.request = request := by
  simp only [item?, Option.bind_eq_bind, Option.bind_eq_some_iff] at listed
  obtain ⟨assignment, -, submission, -, chosen⟩ := listed
  split at chosen
  · cases chosen
    rfl
  · cases chosen

def requested (incompleteOnly : Bool) (ignored : List GlobalId) (shard : ShardId)
    (courses : List CourseId) : List PeerReview :=
  (deployment.tables.peerReviews.filter fun row =>
    row.id.shard = shard && row.assessor = query.user && courses.contains row.course &&
      (!incompleteOnly || row.state = .assigned)).filter fun row => !ignored.contains row.id.global

theorem requested_true (ignored : List GlobalId) (shard : ShardId) (courses : List CourseId) :
    query.requested deployment true ignored shard courses =
      (query.requested deployment false ignored shard courses).filter fun row =>
        row.state = .assigned := by
  simp only [requested, List.filter_filter]
  apply List.filter_congr
  intro row _
  by_cases unfinished : row.state = .assigned <;> simp [unfinished]

theorem outcome_onShard_online {shard : ShardId} (online : shard ∉ deployment.offline)
    (ignored : List GlobalId) (courses : List CourseId) :
    ∃ assignments submissions enrollments, ∀ incompleteOnly,
      (query.onShard deployment incompleteOnly ignored shard courses).outcome =
        .ok ((query.requested deployment incompleteOnly ignored shard courses).filterMap
          (query.item? assignments submissions enrollments)) := by
  have read := deployment.outcome_read online
  obtain ⟨assignments, assignmentsRead⟩ :=
    deployment.outcome_readAssignments online { courses := courses, subAssignments := false }
  obtain ⟨submissions, submissionsRead⟩ := deployment.outcome_readSubmissions online
    ((indexBy (·.id) (assignments.filter (·.peerReviews))).map (·.id)) none
  obtain ⟨enrollments, enrollmentsRead⟩ := deployment.outcome_readEnrollments online courses
  refine ⟨indexBy (·.id) (assignments.filter (·.peerReviews)),
    indexBy (·.id) (submissions.filter Submission.isActive), enrollments, fun incompleteOnly => ?_⟩
  have reviews : (deployment.readPeerReviews shard query.user courses incompleteOnly).outcome =
      .ok (deployment.tables.peerReviews.filter fun row =>
        row.id.shard = shard && row.assessor = query.user && courses.contains row.course &&
          (!incompleteOnly || row.state = .assigned)) := by
    simp [Deployment.readPeerReviews, read, Except.bind]
  simp only [onShard, Metered.outcome_bind, reviews, Except.bind]
  change (if (query.requested deployment incompleteOnly ignored shard courses).isEmpty then _
    else _ : Metered (List PeerReviewTodo)).outcome = _
  split
  · rename_i empty
    rw [List.isEmpty_iff.mp empty]
    rfl
  · simp only [Metered.outcome_bind, assignmentsRead, submissionsRead, enrollmentsRead, Except.bind,
      Metered.outcome_pure]
    rfl

theorem outcome_onShard_incomplete (ignored : List GlobalId) (shard : ShardId)
    (courses : List CourseId) :
    (query.onShard deployment true ignored shard courses).outcome =
      (query.onShard deployment false ignored shard courses).outcome.map
        (List.filter isUnfinished) := by
  by_cases offline : shard ∈ deployment.offline
  · simp [onShard, Deployment.readPeerReviews, Deployment.read, offline, Except.bind, Except.map]
  · obtain ⟨assignments, submissions, enrollments, outcome⟩ :=
      query.outcome_onShard_online deployment offline ignored courses
    rw [outcome, outcome, requested_true]
    refine congrArg Except.ok (filterMap_filter_of_agree ?_ _)
    intro request item listed
    rw [isUnfinished, query.request_of_item? listed]

theorem outcome_list_incomplete (scope : Scope) :
    (query.list deployment scope true).outcome =
      (query.list deployment scope false).outcome.map (List.filter isUnfinished) := by
  simp only [list, Metered.outcome_bind]
  cases (ignoredIds deployment query.user .assessmentRequest .reviewing query.options).outcome with
  | error error => rfl
  | ok ignored =>
      exact outcome_gather_filter (query.outcome_onShard_incomplete deployment ignored) _

end Reviews

theorem Scope.byShard_isEmpty {scope : Scope} (empty : scope.isEmpty = true) :
    scope.byShard.isEmpty = true := by
  simp only [Scope.isEmpty, ShardPartition.isEmpty, Bool.and_eq_true, List.isEmpty_iff] at empty
  have contexts : scope.contexts = [] := by
    simp [Scope.contexts, ShardPartition.toList, empty.1, empty.2]
  rw [Scope.byShard, contexts]
  rfl

theorem Moderation.outcome_list_cap (query : Moderation) {deployment : Deployment}
    (working : deployment.failure? .checkOne = none) (scope : Scope) (cap : Option Nat) :
    (query.list deployment scope cap).outcome =
      (query.list deployment scope none).outcome.map fun items => cap.elim items items.take := by
  have answers (item : AssignmentTodo) :=
    Deployment.outcome_use working { singleChecks := 1 }
      (deployment.allows query.user (Listed.context item) .selectFinalGrade)
  simp only [list, Metered.outcome_bind]
  cases (query.candidates deployment scope).outcome with
  | error error => rfl
  | ok candidates =>
      simp only [Except.bind, Deployment.checkOne, outcome_keepPassing answers, Except.map,
        Option.elim]

theorem Quizzes.outcome_list {query : Quizzes} {deployment : Deployment} {scope : Scope}
    {ignored : List GlobalId} {items : List QuizTodo}
    (ignores : (ignoredIds deployment query.user .quiz .submitting query.options).outcome =
      .ok ignored)
    (found : (gatherParts (query.onShard deployment ignored) scope.courses.parts).outcome =
      .ok items) :
    (query.list deployment scope).outcome = .ok (Listed.sort items) := by
  rw [list, Metered.outcome_bind, ignores]
  change (gather _ _).outcome = _
  rw [gather, Metered.outcome_bind, found]
  rfl

namespace NeedsQuery

variable (query : NeedsQuery) (deployment : Deployment) (user : UserId) (options : NeedsOptions)

def leftIn : (query : NeedsQuery) → List (query.Item → Bool)
  | .reviews => [Reviews.isUnfinished]
  | .submitting _ _ => []
  | .grading _ => []
  | .moderation => []
  | .quizzes _ => []
  | .topics => []
  | .pages => []

/-- The whole list, filtered by one predicate after the other, and of the rest as many items as the
limit lets through. -/
def load (predicates : List (query.Item → Bool)) (limit : Option Nat) :
    Metered (List query.Item) := do
  let items ← query.run deployment user options
  let kept := keepAll predicates items
  return limit.elim kept kept.take

theorem outcome_load (predicates : List (query.Item → Bool)) (limit : Option Nat) :
    (query.load deployment user options predicates limit).outcome =
      (query.run deployment user options).outcome.map fun items =>
        limit.elim (keepAll predicates items) (keepAll predicates items).take := by
  rw [load, Metered.outcome_bind]
  cases (query.run deployment user options).outcome <;> rfl

theorem truncate_eq_elim {ι : Type} (items : List ι) :
    options.truncate items = options.limit.elim items items.take := by
  cases bound : options.limit <;> simp [NeedsOptions.truncate, bound]

theorem outcome_firstItems (working : deployment.failure? .checkOne = none) (scope : Scope) :
    (query.firstItems deployment user options scope).outcome =
      (query.list deployment user options scope).outcome.map fun items =>
        options.limit.elim (keepAll query.leftIn items) (keepAll query.leftIn items).take := by
  have truncated {ι : Type} (list : Metered (List ι)) :
      (do let items ← list; return options.truncate items : Metered (List ι)).outcome =
        list.outcome.map fun items => options.limit.elim items items.take := by
    simp only [Metered.outcome_bind, Metered.outcome_pure, truncate_eq_elim]
    cases list.outcome <;> rfl
  cases query with
  | moderation => exact Moderation.outcome_list_cap ⟨user, options⟩ working scope options.limit
  | reviews =>
      have first := truncated (Reviews.list ⟨user, options⟩ deployment scope true)
      rw [Reviews.outcome_list_incomplete ⟨user, options⟩ deployment scope] at first
      refine first.trans ?_
      change _ = (Reviews.list ⟨user, options⟩ deployment scope false).outcome.map _
      cases (Reviews.list ⟨user, options⟩ deployment scope false).outcome <;> rfl
  | submitting kind choice => exact truncated _
  | grading kind => exact truncated _
  | quizzes choice => exact truncated _
  | topics => exact truncated _
  | pages => exact truncated _

variable {query deployment user options}

theorem keepAll_leftIn_nil : keepAll query.leftIn ([] : List query.Item) = [] := by
  rw [keepAll_eq_filter, List.filter_nil]

theorem outcome_list_outside {scope : Scope} (outside : query.isOutside scope = true)
    (readable : options.includeIgnored = true ∨ user.shard ∉ deployment.offline) :
    (query.list deployment user options scope).outcome = .ok [] := by
  have gathered {ι κ : Type} [Listed ι] (kind : ObjectKind) (purpose : Purpose)
      {partition : ShardPartition κ} (empty : partition.isEmpty = true)
      (step : List GlobalId → ShardId → List κ → Metered (List ι)) :
      (do
        let ignored ← ignoredIds deployment user kind purpose options
        gather partition (step ignored) : Metered (List ι)).outcome = .ok [] := by
    obtain ⟨ids, read⟩ := outcome_ignoredIds readable kind purpose
    rw [Metered.outcome_bind, read]
    exact outcome_gather_of_isEmpty empty
  cases query with
  | submitting kind choice => exact gathered kind.objectKind .submitting outside _
  | grading kind => exact gathered kind.objectKind .grading outside _
  | moderation =>
      have candidates : ((⟨user, options⟩ : Moderation).candidates deployment scope).outcome =
          .ok [] := gathered .assignment .moderation outside _
      change (Moderation.list ⟨user, options⟩ deployment scope none).outcome = _
      rw [Moderation.list, Metered.outcome_bind, candidates]
      rfl
  | quizzes choice => exact gathered .quiz .submitting outside _
  | reviews => exact gathered .assessmentRequest .reviewing outside _
  | topics => exact gathered .discussionTopic .viewing (scope.byShard_isEmpty outside) _
  | pages => exact gathered .wikiPage .viewing (scope.byShard_isEmpty outside) _

variable (query deployment user options)

/-- Where the two forms can be compared: the cache has no fresh entry to answer from and can store
the result, and an empty scope does not hide that the ignores cannot be read. Shards may be offline,
and the directory and the check of many permissions out of order. -/
structure Comparable (memory : Memory) : Prop where
  working : ∀ facility ∈ [Facility.readToken, .readEntry, .writeEntry, .checkOne],
    deployment.failure? facility = none
  unexpired : ∀ scope, (query.scope deployment user options).outcome = .ok scope → ∀ entry,
    memory.cache.entries
      ((query.cacheRequest deployment.config user options scope).currentKey memory) = some entry →
    entry.isFresh deployment.now = false
  representable : deployment.now.add? (.ofSeconds deployment.config.cacheSeconds) ≠ none
  home : ∀ scope, (query.scope deployment user options).outcome = .ok scope →
    query.isOutside scope = true → options.includeIgnored = true ∨ user.shard ∉ deployment.offline

variable {query deployment user options}

theorem runCached_eq_load_of_missing {memory : Memory}
    (working : ∀ facility ∈ [Facility.readToken, .readEntry, .writeEntry, .checkOne],
      deployment.failure? facility = none)
    (missing : ∀ scope, query.isDisabled deployment.config = false →
      (query.scope deployment user options).outcome = .ok scope → query.isOutside scope = false →
      (query.cacheRequest deployment.config user options scope).found? (α := List query.Item)
        deployment (query.afterScope deployment user options memory) = none)
    (representable : deployment.now.add? (.ofSeconds deployment.config.cacheSeconds) ≠ none)
    (home : ∀ scope, (query.scope deployment user options).outcome = .ok scope →
      query.isOutside scope = true → options.includeIgnored = true ∨ user.shard ∉ deployment.offline) :
    (query.runCached deployment user options memory).1 =
      (query.load deployment user options query.leftIn options.limit).outcome.mapError .failed := by
  rw [outcome_load]
  cases disabled : query.isDisabled deployment.config with
  | true =>
      rw [runCached_disabled disabled, outcome_run_disabled disabled]
      cases bound : options.limit <;> simp [Except.map, Except.mapError, keepAll_leftIn_nil]
  | false =>
      rw [outcome_run_enabled disabled]
      cases resolved : (query.scope deployment user options).outcome with
      | error error =>
          rw [runCached_unresolved disabled resolved]
          rfl
      | ok scope =>
          cases outside : query.isOutside scope with
          | true =>
              rw [runCached_outside disabled resolved outside]
              simp only [Except.bind, outcome_list_outside outside (home scope resolved outside)]
              cases bound : options.limit <;> simp [Except.map, Except.mapError, keepAll_leftIn_nil]
          | false =>
              rw [runCached_inside disabled resolved outside,
                CacheRequest.fetch_fst_of_missing (working .readToken (by simp))
                  (working .readEntry (by simp)) (working .writeEntry (by simp))
                  (missing scope disabled resolved outside) representable,
                query.outcome_firstItems deployment user options (working .checkOne (by simp)) scope]
              rfl

theorem runCached_eq_load {memory : Memory}
    (comparable : query.Comparable deployment user options memory) :
    (query.runCached deployment user options memory).1 =
      (query.load deployment user options query.leftIn options.limit).outcome.mapError .failed :=
  runCached_eq_load_of_missing comparable.working
    (fun scope _ resolved _ =>
      CacheRequest.found?_eq_none_of_unexpired (comparable.unexpired scope resolved))
    comparable.representable comparable.home

/-- The two forms of a query agree, and filters commute with the limit. -/
theorem forms_agree (query : NeedsQuery) (deployment : Deployment) (user : UserId)
    (options : NeedsOptions) :
    (∀ memory, query.Comparable deployment user options memory →
      (query.runCached deployment user options memory).1 =
        (query.load deployment user options query.leftIn options.limit).outcome.mapError .failed) ∧
    ∀ (predicates : List (query.Item → Bool)) (limit : Nat),
      (query.load deployment user options predicates (some limit)).outcome =
        (query.load deployment user options [] none).outcome.map fun items =>
          (items.filter fun item => predicates.all fun keep => keep item).take limit := by
  refine ⟨fun memory comparable => runCached_eq_load comparable, fun predicates limit => ?_⟩
  rw [outcome_load, outcome_load]
  cases (query.run deployment user options).outcome with
  | error error => rfl
  | ok items => simp [Except.map, keepAll_eq_filter]

theorem forms_agree_quiz :
    let deployment : Deployment := {
      tables := {
        memberships := [⟨⟨⟨7, by decide⟩⟩, [⟨⟨⟨1, by decide⟩⟩, .student, .active, false⟩], []⟩]
        quizzes := [⟨⟨⟨5, by decide⟩⟩, ⟨⟨1, by decide⟩⟩, "Warm-up", .available, .practice, .none,
          ⟨⟨2026, 1, 10, by decide⟩, 0, 0, by decide, by decide⟩, none⟩] }
      grants := []
      offline := [⟨3, by decide⟩]
      outages := []
      now := ⟨⟨2026, 1, 11, by decide⟩, 0, 0, by decide, by decide⟩
      config := {} }
    let query : NeedsQuery := .quizzes {}
    (query.runCached deployment ⟨⟨7, by decide⟩⟩ .default .empty).1 =
      (query.load deployment ⟨⟨7, by decide⟩⟩ .default [] (some 15)).outcome.mapError .failed := by
  refine (forms_agree (.quizzes {}) _ _ .default).1 .empty ⟨?_, ?_, ?_, ?_⟩
  · decide
  · rintro scope - entry ⟨⟩
  · decide
  · exact fun scope _ _ => .inr (by decide)

end NeedsQuery

end Agenda
