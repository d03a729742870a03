import Agenda.Needs.Gather
import Agenda.Proofs.Corresponds
import Agenda.Proofs.Ignore
import Agenda.Proofs.Needs.Item
import Agenda.Proofs.Needs.Restricted

/-!
Deployments that hold the same rows, each table and list in an order of its own. Reads of both give
the same rows, and where the key of a table tells its rows apart nothing that is looked up in them by
key depends on the order.
-/

namespace Agenda

section Lists

variable {α : Type}

theorem find?_perm {test : α → Bool} {left right : List α} (perm : left.Perm right)
    (one : ∀ first ∈ left, ∀ second ∈ left, test first = true → test second = true → first = second) :
    left.find? test = right.find? test := by
  cases found : right.find? test with
  | none =>
      rw [List.find?_eq_none] at found ⊢
      exact fun element member => found element (perm.mem_iff.mp member)
  | some element =>
      have passes : test element = true := List.find?_some found
      have member : element ∈ left := perm.mem_iff.mpr (List.mem_of_find?_eq_some found)
      cases search : left.find? test with
      | none => exact absurd passes (List.find?_eq_none.mp search element member)
      | some other =>
          exact congrArg some (one other (List.mem_of_find?_eq_some search) element member
            (List.find?_some search) passes)

structure SameRowsOn (key : α → GlobalId) (shard : ShardId) (left right : List α) : Prop where
  perm : left.Perm right
  once : (left.map key).Nodup
  here : ∀ row ∈ left, (key row).shard = shard

namespace SameRowsOn

variable {key : α → GlobalId} {shard : ShardId} {left right : List α}

theorem nil : SameRowsOn key shard [] [] :=
  ⟨.refl _, List.nodup_nil, by simp⟩

theorem filter (same : SameRowsOn key shard left right) (test : α → Bool) :
    SameRowsOn key shard (left.filter test) (right.filter test) where
  perm := same.perm.filter test
  once := same.once.sublist (List.filter_sublist.map key)
  here row member := same.here row (List.mem_filter.mp member).1

theorem filterMap {ι : Type} {id : ι → GlobalId} {make : α → Option ι}
    (same : SameRowsOn key shard left right)
    (ids : ∀ row item, make row = some item → id item = key row) :
    SameRowsOn id shard (left.filterMap make) (right.filterMap make) where
  perm := same.perm.filterMap make
  once := by
    have apart : left.Pairwise fun first second => key first ≠ key second :=
      List.pairwise_map.mp same.once
    refine List.pairwise_map.mpr (List.pairwise_filterMap.mpr (apart.imp ?_))
    intro first second differ item made other further
    rwa [ids first item made, ids second other further]
  here item member := by
    obtain ⟨row, listed, made⟩ := List.mem_filterMap.mp member
    rw [ids row item made]
    exact same.here row listed

theorem map {ι : Type} {id : ι → GlobalId} {make : α → ι} (same : SameRowsOn key shard left right)
    (ids : ∀ row, id (make row) = key row) :
    SameRowsOn id shard (left.map make) (right.map make) where
  perm := same.perm.map make
  once := by simpa only [List.map_map, Function.comp_def, ids] using same.once
  here item member := by
    obtain ⟨row, listed, rfl⟩ := List.mem_map.mp member
    rw [ids]
    exact same.here row listed

theorem of_subset (same : SameRowsOn key shard left right) {chosen : List α}
    (among : chosen ⊆ left) (once : (chosen.map key).Nodup) : SameRowsOn key shard chosen chosen where
  perm := .refl _
  once := once
  here row member := same.here row (among member)

end SameRowsOn

theorem nodup_global {entity : Entity} {key : α → Id entity} {rows : List α}
    (once : (rows.map key).Nodup) : (rows.map fun row => (key row).global).Nodup := by
  have ids : ((rows.map key).map Id.global).Nodup := once.map fun _ _ same => congrArg Id.mk same
  rwa [List.map_map] at ids

theorem nodup_key {entity : Entity} {key : α → Id entity} {rows : List α}
    (once : (rows.map fun row => (key row).global).Nodup) : (rows.map key).Nodup := by
  refine List.Nodup.of_map Id.global ?_
  rwa [List.map_map]

theorem SameRowsOn.indexBy_eq {entity : Entity} {key : α → Id entity} {shard : ShardId}
    {left right : List α} (same : SameRowsOn (fun row => (key row).global) shard left right) :
    indexBy key left = indexBy key right :=
  Ranked.indexBy_perm same.perm (nodup_key same.once)

theorem SameRowsOn.indexed {entity : Entity} {key : α → Id entity} {shard : ShardId}
    {left right : List α} (same : SameRowsOn (fun row => (key row).global) shard left right) :
    SameRowsOn (fun row => (key row).global) shard (indexBy key left) (indexBy key left) :=
  same.of_subset (fun _ => Ranked.mem_of_mem_indexBy) (nodup_global (Ranked.nodup_map_indexBy left))

end Lists

namespace UserMemberships

structure SameRows (left right : UserMemberships) : Prop where
  user : left.user = right.user
  courses : left.courses.Perm right.courses
  groups : left.groups.Perm right.groups

theorem flatMap_perm {α : Type} {parts : UserMemberships → List α} {rows others : List UserMemberships}
    (alike : List.Forall₂ SameRows rows others)
    (perm : ∀ row other, SameRows row other → (parts row).Perm (parts other)) (user : UserId) :
    ((rows.filter fun row => row.user = user).flatMap parts).Perm
      ((others.filter fun row => row.user = user).flatMap parts) := by
  induction alike with
  | nil => exact .refl _
  | @cons row other rest further first _ ih =>
      by_cases own : row.user = user
      · have theirs : other.user = user := first.user.symm.trans own
        simp only [List.filter_cons, own, theirs, decide_true, if_true, List.flatMap_cons]
        exact (perm row other first).append ih
      · have theirs : other.user ≠ user := fun named => own (first.user.trans named)
        simpa only [List.filter_cons, own, theirs, decide_false, Bool.false_eq_true, if_false] using ih

end UserMemberships

namespace Tables

/-- What names a row names only that row. -/
structure KeysUnique (tables : Tables) : Prop extends tables.DistinctIds where
  courses : (tables.courses.map (·.id)).Nodup
  groups : (tables.groups.map (·.id)).Nodup
  overrides : (tables.overrides.map fun row => (row.target, row.user)).Nodup
  quizzes : (tables.quizzes.map (·.id)).Nodup
  peerReviews : (tables.peerReviews.map (·.id)).Nodup
  topics : (tables.topics.map (·.id)).Nodup
  pages : (tables.pages.map (·.id)).Nodup
  ignores : (tables.ignores.map Ignore.identity).Nodup

structure SameRows (left right : Tables) : Prop where
  memberships : ∃ reordered, left.memberships.Perm reordered ∧
    List.Forall₂ UserMemberships.SameRows reordered right.memberships
  courses : left.courses.Perm right.courses
  groups : left.groups.Perm right.groups
  assignments : left.assignments.Perm right.assignments
  submissions : left.submissions.Perm right.submissions
  enrollments : left.enrollments.Perm right.enrollments
  provisionalGrades : left.provisionalGrades.Perm right.provisionalGrades
  overrides : left.overrides.Perm right.overrides
  quizzes : left.quizzes.Perm right.quizzes
  quizAttempts : left.quizAttempts.Perm right.quizAttempts
  peerReviews : left.peerReviews.Perm right.peerReviews
  topics : left.topics.Perm right.topics
  pages : left.pages.Perm right.pages
  ignores : left.ignores.Perm right.ignores

theorem SameRows.refl (tables : Tables) : tables.SameRows tables where
  memberships := ⟨tables.memberships, .refl _,
    List.forall₂_same.mpr fun _ _ => ⟨rfl, .refl _, .refl _⟩⟩
  courses := .refl _
  groups := .refl _
  assignments := .refl _
  submissions := .refl _
  enrollments := .refl _
  provisionalGrades := .refl _
  overrides := .refl _
  quizzes := .refl _
  quizAttempts := .refl _
  peerReviews := .refl _
  topics := .refl _
  pages := .refl _
  ignores := .refl _

end Tables

theorem Scope.side_eq {α : Type} [DecidableEq α] [Ranked α] [Sharded α] (filter : Option (List α))
    {defaults others : Metered (List α)} (alike : Metered.Corresponds List.Perm defaults others) :
    side filter defaults = side filter others := by
  unfold side
  split
  · rfl
  · refine alike.bind_eq fun ids further perm => ?_
    rw [ShardPartition.ofList, Ranked.sortedDistinct_perm (perm.filter _)]
    rfl

namespace Deployment

/-- The same rows, with unique keys, and the same grants; everything else is equal. -/
structure SameRows (left right : Deployment) : Prop where
  keys : left.tables.KeysUnique
  tables : left.tables.SameRows right.tables
  grants : left.grants.Perm right.grants
  offline : left.offline = right.offline
  outages : left.outages = right.outages
  now : left.now = right.now
  config : left.config = right.config

namespace SameRows

open Metered (Corresponds)

variable {left right : Deployment} (same : left.SameRows right)

include same

theorem failure? (facility : Facility) : left.failure? facility = right.failure? facility := by
  simp only [Deployment.failure?, same.outages]

theorem use {α β : Type} {related : α → β → Prop} {answer : α} {other : β} (facility : Facility)
    (effort : Effort) (alike : related answer other) :
    Corresponds related (left.use facility effort answer) (right.use facility effort other) := by
  unfold Deployment.use
  rw [same.failure? facility]
  cases right.failure? facility with
  | some failure => exact .failed _ _
  | none => exact .answered effort alike

theorem allows (user : UserId) (context : Context) (permission : Permission) :
    left.allows user context permission = right.allows user context permission :=
  same.grants.contains_eq

theorem checkOne (user : UserId) (context : Context) (permission : Permission) :
    left.checkOne user context permission = right.checkOne user context permission :=
  (same.use .checkOne _ (same.allows user context permission)).eq

theorem checkMany (user : UserId) {contexts others : List Context} (perm : contexts.Perm others)
    (permissions : List Permission) :
    Corresponds (fun matrix other => ∀ context permission,
        matrix.allows context permission = other.allows context permission)
      (left.checkMany user contexts permissions) (right.checkMany user others permissions) := by
  refine same.use .checkMany _ fun context permission => ?_
  simp only [PermissionMatrix.allows, same.allows]
  exact ((perm.flatMap_right _).filter _).contains_eq

theorem useCache {α : Type} (facility : Facility) (action : Cache → Except Stop α × Cache) :
    Session.useCache left facility action = Session.useCache right facility action := by
  funext memory
  simp only [Session.useCache, same.failure?]

theorem readToken (user : UserId) : Session.readToken left user = Session.readToken right user :=
  same.useCache _ _

theorem readEntry (key : CacheKey) : Session.readEntry left key = Session.readEntry right key := by
  simp only [Session.readEntry, same.useCache, same.now]

theorem writeEntry (key : CacheKey) (value : CachedValue) (lifetime : Duration) :
    Session.writeEntry left key value lifetime = Session.writeEntry right key value lifetime := by
  simp only [Session.writeEntry, same.useCache, same.now]

theorem touch (user : UserId) : Session.touch left user = Session.touch right user :=
  same.useCache _ _

theorem fetch {α : Type} [JsonFormat α] (request : CacheRequest) (compute : Metered α) :
    request.fetch left compute = request.fetch right compute := by
  simp only [CacheRequest.fetch, same.readToken, same.readEntry, same.writeEntry]

section Reads

theorem read {α β : Type} {related : α → β → Prop} {first : Tables → α} {second : Tables → β}
    (shard : ShardId) (rows : related (first left.tables) (second right.tables)) :
    Corresponds related (left.read shard >>= fun tables => pure (first tables))
      (right.read shard >>= fun tables => pure (second tables)) := by
  unfold Deployment.read
  rw [same.offline]
  split
  · exact .failed _ _
  · exact .answered _ rows

theorem readOn {ρ : Type} {entity : Entity} {key : ρ → Id entity} {shard : ShardId}
    {rows : Tables → List ρ} {test : ρ → Bool} (perm : (rows left.tables).Perm (rows right.tables))
    (once : ((rows left.tables).map key).Nodup)
    (owned : ∀ row, test row = true → (key row).shard = shard) :
    Corresponds (SameRowsOn (fun row => (key row).global) shard)
      (left.read shard >>= fun tables => pure ((rows tables).filter test))
      (right.read shard >>= fun tables => pure ((rows tables).filter test)) :=
  same.read shard {
    perm := perm.filter test
    once := (nodup_global once).sublist (List.filter_sublist.map _)
    here := fun row member => owned row (List.mem_filter.mp member).2 }

theorem readAssignments (shard : ShardId) (query : AssignmentQuery) :
    Corresponds (SameRowsOn (fun row => row.id.global) shard) (left.readAssignments shard query)
      (right.readAssignments shard query) :=
  same.readOn same.tables.assignments same.keys.assignments (by simp +contextual)

theorem readSubmissions (shard : ShardId) {assignments others : List AssignmentId}
    (perm : assignments.Perm others) (user : Option UserId) :
    Corresponds (SameRowsOn (fun row => row.id.global) shard)
      (left.readSubmissions shard assignments user) (right.readSubmissions shard others user) := by
  simp only [Deployment.readSubmissions, perm.contains_eq]
  exact same.readOn same.tables.submissions same.keys.submissions (by simp +contextual)

theorem readQuizzes (shard : ShardId) (courses : List CourseId) :
    Corresponds (SameRowsOn (fun row => row.id.global) shard) (left.readQuizzes shard courses)
      (right.readQuizzes shard courses) :=
  same.readOn same.tables.quizzes same.keys.quizzes (by simp +contextual)

theorem readPeerReviews (shard : ShardId) (assessor : UserId) (courses : List CourseId)
    (incompleteOnly : Bool) :
    Corresponds (SameRowsOn (fun row => row.id.global) shard)
      (left.readPeerReviews shard assessor courses incompleteOnly)
      (right.readPeerReviews shard assessor courses incompleteOnly) :=
  same.readOn same.tables.peerReviews same.keys.peerReviews (by simp +contextual)

theorem readTopics (shard : ShardId) (contexts : List Context) :
    Corresponds (SameRowsOn (fun row => row.id.global) shard) (left.readTopics shard contexts)
      (right.readTopics shard contexts) :=
  same.readOn same.tables.topics same.keys.topics (by simp +contextual)

theorem readPages (shard : ShardId) (contexts : List Context) :
    Corresponds (SameRowsOn (fun row => row.id.global) shard) (left.readPages shard contexts)
      (right.readPages shard contexts) :=
  same.readOn same.tables.pages same.keys.pages (by simp +contextual)

theorem readCourses (shard : ShardId) (ids : List CourseId) :
    Corresponds (fun rows others => rows.Perm others ∧ rows ⊆ left.tables.courses)
      (left.readCourses shard ids) (right.readCourses shard ids) :=
  same.read shard ⟨same.tables.courses.filter _, List.filter_subset_self _⟩

theorem readEnrollments (shard : ShardId) (courses : List CourseId) :
    Corresponds List.Perm (left.readEnrollments shard courses)
      (right.readEnrollments shard courses) :=
  same.read shard (same.tables.enrollments.filter _)

theorem readProvisionalGrades (shard : ShardId) {submissions others : List SubmissionId}
    (perm : submissions.Perm others) :
    Corresponds List.Perm (left.readProvisionalGrades shard submissions)
      (right.readProvisionalGrades shard others) := by
  simp only [Deployment.readProvisionalGrades, perm.contains_eq]
  exact same.read shard (same.tables.provisionalGrades.filter _)

theorem readQuizAttempts (shard : ShardId) (user : UserId) {quizzes others : List QuizId}
    (perm : quizzes.Perm others) :
    Corresponds List.Perm (left.readQuizAttempts shard user quizzes)
      (right.readQuizAttempts shard user others) := by
  simp only [Deployment.readQuizAttempts, perm.contains_eq]
  exact same.read shard (same.tables.quizAttempts.filter _)

theorem readOverrides (shard : ShardId) (user : UserId) {targets others : List OverrideTarget}
    (perm : targets.Perm others) :
    Corresponds (fun rows others => ∀ target,
        DueDateOverride.datesOf? rows target = DueDateOverride.datesOf? others target)
      (left.readOverrides shard user targets) (right.readOverrides shard user others) := by
  simp only [Deployment.readOverrides, perm.contains_eq]
  refine same.read shard fun target => congrArg (Option.map _) ?_
  have reordered := (same.tables.overrides.filter fun row =>
    row.target.shard = shard && row.user = user && others.contains row.target)
  refine find?_perm ((List.reverse_perm _).trans (reordered.trans (List.reverse_perm _).symm)) ?_
  intro first firstRead second secondRead own further
  simp only [List.mem_reverse, List.mem_filter, Bool.and_eq_true, decide_eq_true_eq] at *
  exact List.inj_on_of_nodup_map same.keys.overrides firstRead.1 secondRead.1
    (Prod.ext (own.trans further.symm) (firstRead.2.1.2.trans secondRead.2.1.2.symm))

theorem readIgnores (user : UserId) (purpose : Purpose) :
    Corresponds List.Perm (left.readIgnores user purpose) (right.readIgnores user purpose) :=
  same.read user.shard (same.tables.ignores.filter _)

end Reads

theorem ignoredIds (user : UserId) (kind : ObjectKind) (purpose : Purpose) (options : NeedsOptions) :
    Corresponds List.Perm (Agenda.ignoredIds left user kind purpose options)
      (Agenda.ignoredIds right user kind purpose options) := by
  refine .ite rfl (.pure (.refl _)) ?_
  refine .bind (same.readIgnores user purpose) fun rows others perm => ?_
  exact .pure ((perm.filter _).map _)

theorem checkpointCourses (shard : ShardId) (courses : List CourseId) :
    Corresponds List.Perm (Agenda.checkpointCourses left shard courses)
      (Agenda.checkpointCourses right shard courses) := by
  refine .bind (same.readCourses shard courses) fun rows others perm => ?_
  exact .pure ((perm.1.filter _).map _)

section Scopes

theorem memberships (user : UserId) : (left.memberships user).Perm (right.memberships user) := by
  obtain ⟨reordered, perm, alike⟩ := same.tables.memberships
  exact ((perm.filter _).flatMap_right _).trans
    (UserMemberships.flatMap_perm alike (fun _ _ rows => rows.courses) user)

theorem groups (user : UserId) : (left.groups user).Perm (right.groups user) := by
  obtain ⟨reordered, perm, alike⟩ := same.tables.memberships
  exact ((perm.filter _).flatMap_right _).trans
    (UserMemberships.flatMap_perm alike (fun _ _ rows => rows.groups) user)

theorem grantedCourses (user : UserId) {candidates others : List CourseId}
    (perm : candidates.Perm others) (permission : Permission) :
    Corresponds List.Perm (Scope.grantedCourses left user candidates permission)
      (Scope.grantedCourses right user others permission) := by
  refine .ite perm.isEmpty_eq (.pure (.refl _)) ?_
  refine .bind (same.checkMany user (perm.map _) _) fun matrix other allowed => ?_
  simp only [allowed]
  exact .pure (perm.filter _)

theorem defaultCourses (user : UserId) (request : ScopeRequest) :
    Corresponds List.Perm (Scope.defaultCourses left user request)
      (Scope.defaultCourses right user request) := by
  refine .bind (same.use .listCourses _ (same.memberships user)) fun rows others perm => ?_
  refine .ite rfl (.pure (perm.map _)) ?_
  have current := perm.filter Membership.isCurrent
  cases request.permission with
  | participate => exact .pure ((current.filter _).map _)
  | instruct => exact .pure ((current.filter _).map _)
  | grant permission => exact same.grantedCourses user (current.map _) permission

theorem resolve (user : UserId) (request : ScopeRequest) :
    Scope.resolve left user request = Scope.resolve right user request := by
  have listed : Corresponds List.Perm (left.listGroups user) (right.listGroups user) :=
    same.use .listGroups .zero (same.groups user)
  simp only [Scope.resolve, Scope.side_eq request.courseFilter (same.defaultCourses user request),
    Scope.side_eq request.groupFilter listed]

end Scopes

end SameRows

end Deployment

end Agenda
