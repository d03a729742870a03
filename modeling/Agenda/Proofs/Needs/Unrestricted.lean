import Agenda.Proofs.Needs.Restricted
import Agenda.Proofs.Scope

/-!
Filters commute with queries. What a query lists with explicit filters, a window and ignores is what
it lists without them, restricted afterwards.
-/

namespace Agenda

theorem all_intersectFilters {α : Type} [DecidableEq α] (first second : Option (List α)) (id : α) :
    ((intersectFilters first second).all fun ids => ids.contains id) =
      ((first.all fun ids => ids.contains id) && second.all fun ids => ids.contains id) := by
  cases first with
  | none => simp [intersectFilters]
  | some ids =>
      cases second with
      | none => simp [intersectFilters]
      | some others => simp only [intersectFilters, Option.all_some, contains_filter]

namespace Context

theorem course?_eq_some {context : Context} {id : CourseId} :
    context.course? = some id ↔ context = .course id := by
  cases context <;> simp [course?]

theorem group?_eq_some {context : Context} {id : GroupId} :
    context.group? = some id ↔ context = .group id := by
  cases context <;> simp [group?]

theorem contains_filterMap {α : Type} [DecidableEq α] {pick : Context → Option α} {wrap : α → Context}
    (picks : ∀ {context id}, pick context = some id ↔ context = wrap id) (contexts : List Context)
    (id : α) : (contexts.filterMap pick).contains id = contexts.contains (wrap id) := by
  rw [Bool.eq_iff_iff]
  simp [picks]

end Context

namespace NeedsOptions

variable (options : NeedsOptions) (permission : ScopePermission)

theorem admits_course (id : CourseId) :
    ((options.scopeRequest permission).courseFilter.all fun ids => ids.contains id) =
      options.admits (.course id) := by
  rw [ScopeRequest.courseFilter, all_intersectFilters, admits, Option.all_map]
  refine congrArg (_ && options.contexts.all ·) (funext fun contexts => ?_)
  exact Context.contains_filterMap Context.course?_eq_some contexts id

theorem admits_group (id : GroupId) :
    ((options.scopeRequest permission).groupFilter.all fun ids => ids.contains id) =
      options.admits (.group id) := by
  rw [ScopeRequest.groupFilter, all_intersectFilters, admits, Option.all_map]
  refine congrArg (_ && options.contexts.all ·) (funext fun contexts => ?_)
  exact Context.contains_filterMap Context.group?_eq_some contexts id

end NeedsOptions

namespace Scope

def retain (keep : Context → Bool) (scope : Scope) : Scope where
  courses := scope.courses.retain fun id => keep (.course id)
  groups := scope.groups.retain fun id => keep (.group id)

theorem contexts_retain (keep : Context → Bool) (scope : Scope) :
    (scope.retain keep).contexts = scope.contexts.filter keep := by
  simp only [contexts, retain, ShardPartition.toList_retain, List.filter_append, List.filter_map]
  rfl

theorem byShard_retain (keep : Context → Bool) (scope : Scope) :
    (scope.retain keep).byShard = scope.byShard.retain keep := by
  rw [byShard, contexts_retain, ShardPartition.ofList_filter, byShard]

theorem side_retain {α : Type} [DecidableEq α] [Ranked α] [Sharded α] (filter : Option (List α))
    {defaults : Metered (List α)} {all : ShardPartition α}
    (chosen : (side none defaults).outcome = .ok all) :
    (side filter defaults).outcome =
      .ok (all.retain fun id => filter.all fun wanted => wanted.contains id) := by
  rcases side_cases chosen with ⟨nothing, -⟩ | ⟨ids, listed, rfl⟩
  · cases nothing
  · rw [← ShardPartition.ofList_filter, List.filter_filter, side]
    split
    · rename_i nothing
      simp [nothing]
    · simp [listed, Except.bind]

theorem resolve_retain (deployment : Deployment) (user : UserId) (options : NeedsOptions)
    (permission : ScopePermission) {scope : Scope}
    (resolved : (resolve deployment user (options.unrestricted.scopeRequest permission)).outcome =
      .ok scope) :
    (resolve deployment user (options.scopeRequest permission)).outcome =
      .ok (scope.retain options.admits) := by
  obtain ⟨chosen, joined⟩ := sides_of_resolve resolved
  have courses := side_retain (options.scopeRequest permission).courseFilter chosen
  have groups := side_retain (options.scopeRequest permission).groupFilter joined
  simp only [options.admits_course] at courses
  simp only [options.admits_group] at groups
  have candidates : defaultCourses deployment user (options.scopeRequest permission) =
      defaultCourses deployment user (options.unrestricted.scopeRequest permission) := rfl
  simp only [resolve, candidates, Metered.outcome_bind, courses, groups, Except.bind,
    Metered.outcome_pure]
  rfl

end Scope

namespace NeedsQuery

def dueOf : (query : NeedsQuery) → query.Item → Option Instant
  | .submitting _ _, item => AssignmentTodo.due item
  | .grading _, item => AssignmentTodo.due item
  | .moderation, item => AssignmentTodo.due item
  | .quizzes _, item => QuizTodo.due item
  | .reviews, item => PeerReviewTodo.due item
  | .topics, item => DiscussionTopic.toDo item
  | .pages, item => WikiPage.toDo item

variable (query : NeedsQuery) (deployment : Deployment) (user : UserId) (options : NeedsOptions)

/-- The item belongs to a context that the filters let pass, is due in the window, and is not
ignored. -/
def keeps (item : query.Item) : Bool :=
  options.admits (Listed.context item) && options.withinWindow (query.dueOf item) &&
    !(query.ignored deployment user options).contains (Listed.id item)

variable {query deployment user options}

theorem flatMap_found_retain {ι κ : Type} {narrow wide : ShardId → List κ → List ι} {keep : κ → Bool}
    {passes : ι → Bool} (idle : ∀ shard item, item ∉ narrow shard [])
    (same : ∀ shard ids, narrow shard (ids.filter keep) = (wide shard ids).filter passes)
    (partition : ShardPartition κ) :
    ((partition.retain keep).parts.flatMap fun part => narrow part.1 part.2) =
      (partition.parts.flatMap fun part => wide part.1 part.2).filter passes := by
  rw [ShardPartition.flatMap_retain idle]
  exact flatMap_filter fun part _ => same part.1 part.2

theorem found_retain (distinct : deployment.tables.DistinctIds)
    (coherent : query = .reviews → deployment.tables.ReviewsCoherent) (scope : Scope) :
    query.found deployment user options (scope.retain options.admits) [] =
      (query.found deployment user options.unrestricted scope []).filter fun item =>
        options.admits (Listed.context item) && options.withinWindow (query.dueOf item) := by
  cases query with
  | submitting kind choice =>
      exact flatMap_found_retain (fun _ _ listed => nomatch (Submitting.row_of_found listed).1)
        (fun shard ids =>
          Submitting.found_restrict kind choice user options deployment shard ids _) scope.courses
  | grading kind =>
      exact flatMap_found_retain (fun _ _ listed => nomatch (Grading.row_of_found listed).1)
        (fun shard ids => Grading.found_restrict kind user options shard ids _ distinct) scope.courses
  | moderation =>
      exact flatMap_found_retain (fun _ _ listed => nomatch (Moderation.row_of_found listed).1)
        (fun shard ids => Moderation.found_restrict user options shard ids _ distinct) scope.courses
  | quizzes choice =>
      exact flatMap_found_retain (fun _ _ listed => nomatch Quizzes.course_of_found listed)
        (fun shard ids => Quizzes.found_restrict choice user options deployment shard ids _)
        scope.courses
  | reviews =>
      exact flatMap_found_retain (fun _ _ listed => nomatch Reviews.course_of_found listed)
        (fun shard ids => Reviews.found_restrict user options shard ids _ distinct (coherent rfl))
        scope.courses
  | topics =>
      rw [found, Scope.byShard_retain]
      exact flatMap_found_retain (fun _ _ listed => nomatch Viewing.context_of_foundTopics listed)
        (fun shard ids => Viewing.foundTopics_restrict user options deployment shard ids _)
        scope.byShard
  | pages =>
      rw [found, Scope.byShard_retain]
      exact flatMap_found_retain (fun _ _ listed => nomatch Viewing.context_of_foundPages listed)
        (fun shard ids => Viewing.foundPages_restrict user options deployment shard ids _)
        scope.byShard

theorem sorted_retain (distinct : deployment.tables.DistinctIds)
    (coherent : query = .reviews → deployment.tables.ReviewsCoherent) (scope : Scope) :
    query.sorted deployment user options (scope.retain options.admits) =
      (query.sorted deployment user options.unrestricted scope).filter
        (query.keeps deployment user options) := by
  have all : query.ignored deployment user options.unrestricted = [] := rfl
  rw [sorted, sorted, all, Listed.filter_sort,
    query.found_filter deployment user options _ _ fun _ => distinct.pending,
    found_retain distinct coherent, List.filter_filter]
  refine congrArg _ (List.filter_congr fun item _ => ?_)
  rw [keeps, Bool.and_comm]

theorem outcome_run_of_unrestricted (online : deployment.offline = [])
    (distinct : deployment.tables.DistinctIds)
    (coherent : query = .reviews → deployment.tables.ReviewsCoherent) {items : List query.Item}
    (listed : (query.run deployment user options.unrestricted).outcome = .ok items) :
    (query.run deployment user options).outcome =
      .ok (items.filter (query.keeps deployment user options)) := by
  cases disabled : query.isDisabled deployment.config with
  | true =>
      rw [outcome_run_disabled disabled] at listed
      cases listed
      rw [outcome_run_disabled disabled, List.filter_nil]
  | false =>
      rw [outcome_run_enabled disabled] at listed
      obtain ⟨scope, resolved, inScope⟩ := bind_eq_ok.mp listed
      rw [outcome_list, access_online online] at inScope
      have narrowed : (query.scope deployment user options).outcome = _ :=
        Scope.resolve_retain deployment user options query.permission resolved
      rw [outcome_run_enabled disabled, narrowed, Except.bind, outcome_list, access_online online,
        sorted_retain distinct coherent]
      exact choose_filter _ inScope

/-- With distinct ids and coherent reviews, and no shard offline, a query with filters, a window and
ignores lists what it lists without them, restricted to the items that they keep. If nothing else is
out of order it does list something without them. -/
theorem load_commutes (query : NeedsQuery) (deployment : Deployment) (user : UserId)
    (options : NeedsOptions) (online : deployment.offline = [])
    (distinct : deployment.tables.DistinctIds)
    (coherent : query = .reviews → deployment.tables.ReviewsCoherent) :
    (∀ items, (query.load deployment user options.unrestricted [] none).outcome = .ok items →
      (query.load deployment user options [] none).outcome =
        .ok (items.filter (query.keeps deployment user options))) ∧
    (deployment.outages = [] →
      ∃ items, (query.load deployment user options.unrestricted [] none).outcome = .ok items) := by
  have whole (choices : NeedsOptions) : (query.load deployment user choices [] none).outcome =
      (query.run deployment user choices).outcome := by
    rw [outcome_load]
    cases (query.run deployment user choices).outcome <;> rfl
  rw [whole, whole]
  exact ⟨fun items listed => outcome_run_of_unrestricted online distinct coherent listed,
    fun working => outcome_run_served working online query user options.unrestricted⟩

def essayFor (id : AssignmentId) (course : CourseId) (updated : Instant) : Assignment where
  id := id
  course := course
  title := "Essay"
  state := .published
  submissionTypes := [.onlineTextEntry]
  due := none
  unlock := none
  lock := none
  updated := updated
  audience := none
  suppressed := false
  moderated := false
  finalGrader := none
  gradesPublished := false
  peerReviews := true
  hasSubAssignments := false
  parent := none

/-- One of two courses is asked for, in each of which a student reviews an essay. -/
theorem load_commutes_essays :
    let student : UserId := ⟨⟨7, by decide⟩⟩
    let author : UserId := ⟨⟨8, by decide⟩⟩
    let physics : CourseId := ⟨⟨1, by decide⟩⟩
    let history : CourseId := ⟨⟨2, by decide⟩⟩
    let noon : Instant := ⟨⟨2026, 1, 11, by decide⟩, 43200, 0, by decide, by decide⟩
    let motion := essayFor ⟨⟨10, by decide⟩⟩ physics noon
    let rome := essayFor ⟨⟨20, by decide⟩⟩ history noon
    let deployment : Deployment := {
      tables := {
        memberships := [⟨student, [⟨physics, .student, .active, false⟩,
          ⟨history, .student, .active, false⟩], []⟩]
        assignments := [motion, rome]
        submissions := [
          ⟨⟨⟨11, by decide⟩⟩, motion.id, author, .submitted, some .onlineTextEntry, false, false, false,
            none⟩,
          ⟨⟨⟨21, by decide⟩⟩, rome.id, author, .submitted, some .onlineTextEntry, false, false, false,
            none⟩]
        enrollments := [⟨author, physics, ⟨⟨3, by decide⟩⟩, .student, .active, false⟩,
          ⟨author, history, ⟨⟨4, by decide⟩⟩, .student, .active, false⟩]
        peerReviews := [
          ⟨⟨⟨12, by decide⟩⟩, student, author, ⟨⟨11, by decide⟩⟩, motion.id, physics, .assigned, noon⟩,
          ⟨⟨⟨22, by decide⟩⟩, student, author, ⟨⟨21, by decide⟩⟩, rome.id, history, .assigned, noon⟩] }
      grants := []
      offline := []
      outages := []
      now := noon
      config := {} }
    let options : NeedsOptions := { courses := some [physics] }
    ∃ items : List PeerReviewTodo,
      (NeedsQuery.reviews.load deployment student options.unrestricted [] none).outcome = .ok items ∧
      (NeedsQuery.reviews.load deployment student options [] none).outcome =
        .ok (items.filter (NeedsQuery.reviews.keeps deployment student options)) := by
  intro student author physics history noon motion rome deployment options
  have law := load_commutes .reviews deployment student options rfl ⟨by decide, by decide⟩
    fun _ => ⟨by decide, by decide⟩
  obtain ⟨items, listed⟩ := law.2 rfl
  exact ⟨items, listed, law.1 items listed⟩

end NeedsQuery

end Agenda
