import Agenda.Proofs.Needs.Forms
import Agenda.Proofs.Ranked

/-!
What each query finds on one shard. A step that can read its shard answers that list, and one that
cannot answers the error of the read. Each row is looked up among all rows of the shard: that the
steps read only the rows they need for their candidates makes no difference.
-/

namespace Agenda

section Reads

variable {deployment : Deployment} {shard : ShardId}

theorem Deployment.outcome_read_offline (offline : shard ∈ deployment.offline) :
    (deployment.read shard).outcome =
      .error (ServiceFailure.storeConnection shard "shard offline").toError := by
  simp [read, offline]

end Reads

namespace Tables

variable (tables : Tables) (shard : ShardId)

def checkpointCoursesOn (courses : List CourseId) : List CourseId :=
  ((tables.courses.filter fun row => row.id.shard = shard && courses.contains row.id).filter
    (·.checkpoints)).map (·.id)

def assignmentsOn (query : AssignmentQuery) : List Assignment :=
  tables.assignments.filter fun row => row.id.shard = shard && query.admits row

def submissionsOn (user : Option UserId) : List Submission :=
  tables.submissions.filter fun row => row.id.shard = shard && user.all fun user => row.user = user

def pendingOn : List Submission :=
  (tables.submissionsOn shard none).filter fun row => row.isActive && row.needsGrading

def enrollmentsOn (courses : List CourseId) : List Enrollment :=
  tables.enrollments.filter fun row => row.course.shard = shard && courses.contains row.course

def gradesOn : List ProvisionalGrade :=
  tables.provisionalGrades.filter fun row => row.submission.shard = shard

def overridesOn (user : UserId) : List DueDateOverride :=
  tables.overrides.filter fun row => row.target.shard = shard && row.user = user

def quizzesOn (courses : List CourseId) : List Quiz :=
  tables.quizzes.filter fun row => row.id.shard = shard && courses.contains row.course

def attemptsOn (user : UserId) : List QuizAttempt :=
  tables.quizAttempts.filter fun row => row.quiz.shard = shard && row.user = user

def topicsOn (contexts : List Context) : List DiscussionTopic :=
  tables.topics.filter fun row => row.id.shard = shard && contexts.contains row.context

def pagesOn (contexts : List Context) : List WikiPage :=
  tables.pages.filter fun row => row.id.shard = shard && contexts.contains row.context

/-- Among the submissions that wait for a grade an id names one assignment. -/
def PendingDistinct : Prop :=
  ∀ first ∈ tables.submissions, ∀ second ∈ tables.submissions,
    first.isActive && first.needsGrading → second.isActive && second.needsGrading →
      first.id = second.id → first.assignment = second.assignment

end Tables

section Reads

variable {deployment : Deployment} {shard : ShardId} (online : shard ∉ deployment.offline)
include online

theorem outcome_checkpointCourses (courses : List CourseId) :
    (checkpointCourses deployment shard courses).outcome =
      .ok (deployment.tables.checkpointCoursesOn shard courses) := by
  simp [checkpointCourses, Deployment.readCourses, deployment.outcome_read online, Except.bind,
    Tables.checkpointCoursesOn]

namespace Deployment

theorem outcome_readAssignments_online (query : AssignmentQuery) :
    (deployment.readAssignments shard query).outcome =
      .ok (deployment.tables.assignmentsOn shard query) := by
  simp [readAssignments, deployment.outcome_read online, Except.bind, Tables.assignmentsOn]

theorem outcome_readSubmissions_online (assignments : List AssignmentId) (user : Option UserId) :
    (deployment.readSubmissions shard assignments user).outcome =
      .ok ((deployment.tables.submissionsOn shard user).filter fun row =>
        assignments.contains row.assignment) := by
  simp only [readSubmissions, Metered.outcome_bind, Metered.outcome_pure,
    deployment.outcome_read online, Except.bind, Tables.submissionsOn, List.filter_filter]
  refine congrArg Except.ok (List.filter_congr fun row _ => ?_)
  rw [Bool.and_right_comm, Bool.and_comm]

theorem outcome_readEnrollments_online (courses : List CourseId) :
    (deployment.readEnrollments shard courses).outcome =
      .ok (deployment.tables.enrollmentsOn shard courses) := by
  simp [readEnrollments, deployment.outcome_read online, Except.bind, Tables.enrollmentsOn]

theorem outcome_readProvisionalGrades_online (submissions : List SubmissionId) :
    (deployment.readProvisionalGrades shard submissions).outcome =
      .ok ((deployment.tables.gradesOn shard).filter fun row =>
        submissions.contains row.submission) := by
  simp only [readProvisionalGrades, Metered.outcome_bind, Metered.outcome_pure,
    deployment.outcome_read online, Except.bind, Tables.gradesOn, List.filter_filter, Bool.and_comm]

theorem outcome_readOverrides_online (user : UserId) (targets : List OverrideTarget) :
    (deployment.readOverrides shard user targets).outcome =
      .ok ((deployment.tables.overridesOn shard user).filter fun row =>
        targets.contains row.target) := by
  simp only [readOverrides, Metered.outcome_bind, Metered.outcome_pure,
    deployment.outcome_read online, Except.bind, Tables.overridesOn, List.filter_filter, Bool.and_comm]

theorem outcome_readQuizzes_online (courses : List CourseId) :
    (deployment.readQuizzes shard courses).outcome =
      .ok (deployment.tables.quizzesOn shard courses) := by
  simp [readQuizzes, deployment.outcome_read online, Except.bind, Tables.quizzesOn]

theorem outcome_readQuizAttempts_online (user : UserId) (quizzes : List QuizId) :
    (deployment.readQuizAttempts shard user quizzes).outcome =
      .ok ((deployment.tables.attemptsOn shard user).filter fun row =>
        quizzes.contains row.quiz) := by
  simp only [readQuizAttempts, Metered.outcome_bind, Metered.outcome_pure,
    deployment.outcome_read online, Except.bind, Tables.attemptsOn, List.filter_filter, Bool.and_comm]

end Deployment

end Reads

theorem contains_map_filter {α β : Type} [DecidableEq β] (key : α → β) {wanted : List β} {value : β}
    (asked : value ∈ wanted) (test : α → Bool) (rows : List α) :
    (((rows.filter fun row => wanted.contains (key row)).filter test).map key).contains value =
      ((rows.filter test).map key).contains value := by
  rw [Bool.eq_iff_iff]
  simp only [List.contains_eq_mem, decide_eq_true_eq, List.mem_map, List.mem_filter]
  constructor
  · rintro ⟨row, ⟨⟨member, -⟩, passes⟩, rfl⟩
    exact ⟨row, ⟨member, passes⟩, rfl⟩
  · rintro ⟨row, ⟨member, passes⟩, rfl⟩
    exact ⟨row, ⟨⟨member, asked⟩, passes⟩, rfl⟩

theorem DueDateOverride.datesOf?_filter {targets : List OverrideTarget} {target : OverrideTarget}
    (asked : target ∈ targets) (overrides : List DueDateOverride) :
    datesOf? (overrides.filter fun row => targets.contains row.target) target =
      datesOf? overrides target := by
  unfold datesOf?
  rw [← List.filter_reverse, List.find?_filter]
  refine congrArg (Option.map _) (List.find?_congr fun row _ => ?_)
  by_cases hit : row.target = target <;> simp [hit, asked]

namespace Submitting

variable (query : Submitting) (deployment : Deployment) (ignored : List GlobalId) (shard : ShardId)
  (courses : List CourseId)

def candidates : List Assignment :=
  (deployment.tables.assignmentsOn shard
    { courses := courses, subAssignments := query.kind = .subAssignment }).filter
      (query.isCandidate ignored (deployment.tables.checkpointCoursesOn shard courses))

theorem item?_congr {now : Instant} {overrides others : List DueDateOverride}
    {turnedIn done : List AssignmentId} {row : Assignment}
    (dates : DueDateOverride.datesOf? overrides (.assignment row.id) =
      DueDateOverride.datesOf? others (.assignment row.id))
    (same : turnedIn.contains row.id = done.contains row.id) :
    query.item? now overrides turnedIn row = query.item? now others done row := by
  simp only [item?, dates, same]

def turnedIn : List AssignmentId :=
  ((deployment.tables.submissionsOn shard (some query.user)).filter fun row =>
    row.isActive && row.isTurnedIn).map (·.assignment)

def found : List AssignmentTodo :=
  (query.candidates deployment ignored shard courses).filterMap
    (query.item? deployment.now (deployment.tables.overridesOn shard query.user)
      (query.turnedIn deployment shard))

theorem outcome_onShard :
    (query.onShard deployment ignored shard courses).outcome =
      (deployment.read shard).outcome.map fun _ => query.found deployment ignored shard courses := by
  by_cases offline : shard ∈ deployment.offline
  · simp [onShard, checkpointCourses, Deployment.readCourses, Deployment.outcome_read_offline offline,
      Except.bind, Except.map]
  simp only [onShard, Metered.outcome_bind, outcome_checkpointCourses offline, Except.bind, Except.map,
    Deployment.outcome_readAssignments_online offline, deployment.outcome_read offline]
  rw [← candidates]
  split
  · rename_i empty
    simp [found, List.isEmpty_iff.mp empty]
  simp only [Metered.outcome_bind, Deployment.outcome_readOverrides_online offline,
    Deployment.outcome_readSubmissions_online offline, Except.bind, Metered.outcome_pure]
  refine congrArg Except.ok (List.filterMap_congr fun row member => ?_)
  exact query.item?_congr (DueDateOverride.datesOf?_filter (List.mem_map_of_mem member) _)
    (contains_map_filter Submission.assignment (List.mem_map_of_mem member) _ _)

end Submitting

namespace Quizzes

variable (query : Quizzes) (deployment : Deployment) (ignored : List GlobalId) (shard : ShardId)
  (courses : List CourseId)

def candidates : List Quiz :=
  (deployment.tables.quizzesOn shard courses).filter (query.isCandidate ignored)

theorem item?_congr {now : Instant} {overrides others : List DueDateOverride}
    {completed done : List QuizId} {row : Quiz}
    (dates : DueDateOverride.datesOf? overrides (.quiz row.id) =
      DueDateOverride.datesOf? others (.quiz row.id))
    (same : completed.contains row.id = done.contains row.id) :
    query.item? now overrides completed row = query.item? now others done row := by
  simp only [item?, dates, same]

def completedOn : List QuizId :=
  if query.choice.needingSubmissionOnly then
    ((deployment.tables.attemptsOn shard query.user).filter (·.completed)).map (·.quiz)
  else []

def found : List QuizTodo :=
  (query.candidates deployment ignored shard courses).filterMap
    (query.item? deployment.now (deployment.tables.overridesOn shard query.user)
      (query.completedOn deployment shard))

theorem outcome_completed (online : shard ∉ deployment.offline) (candidates : List Quiz) :
    ∃ ids, (query.completed deployment shard candidates).outcome = .ok ids ∧
      ∀ row ∈ candidates, ids.contains row.id = (query.completedOn deployment shard).contains row.id := by
  unfold completed completedOn
  by_cases asked : query.choice.needingSubmissionOnly = true
  · simp only [asked, if_true, Metered.outcome_bind, Metered.outcome_pure, Except.bind,
      Deployment.outcome_readQuizAttempts_online online]
    exact ⟨_, rfl, fun row member => contains_map_filter QuizAttempt.quiz (List.mem_map_of_mem member) _ _⟩
  · simp [asked]

theorem outcome_onShard :
    (query.onShard deployment ignored shard courses).outcome =
      (deployment.read shard).outcome.map fun _ => query.found deployment ignored shard courses := by
  by_cases offline : shard ∈ deployment.offline
  · simp [onShard, Deployment.readQuizzes, Deployment.outcome_read_offline offline, Except.bind,
      Except.map]
  simp only [onShard, Metered.outcome_bind, Except.bind, Except.map,
    Deployment.outcome_readQuizzes_online offline, deployment.outcome_read offline]
  rw [← candidates]
  split
  · rename_i empty
    simp [found, List.isEmpty_iff.mp empty]
  obtain ⟨ids, read, same⟩ := query.outcome_completed deployment shard offline
    (query.candidates deployment ignored shard courses)
  simp only [Metered.outcome_bind, Deployment.outcome_readOverrides_online offline, read, Except.bind,
    Metered.outcome_pure]
  refine congrArg Except.ok (List.filterMap_congr fun row member => ?_)
  exact query.item?_congr (DueDateOverride.datesOf?_filter (List.mem_map_of_mem member) _)
    (same row member)

end Quizzes

namespace Grading

variable (query : Grading) (deployment : Deployment) (ignored : List GlobalId) (shard : ShardId)
  (courses : List CourseId)

def candidates : List Assignment :=
  indexBy (·.id) ((deployment.tables.assignmentsOn shard
    { courses := courses, subAssignments := query.kind = .subAssignment }).filter
      (query.isCandidate ignored (deployment.tables.checkpointCoursesOn shard courses)))

def gradedOn : List SubmissionId :=
  ((deployment.tables.gradesOn shard).filter fun row => row.scorer = query.user).map (·.submission)

def found : List AssignmentTodo :=
  (query.candidates deployment ignored shard courses).filterMap
    (item? ⟨query.user, deployment.tables.enrollmentsOn shard courses⟩
      (query.gradedOn deployment shard) (deployment.tables.pendingOn shard))

theorem item?_congr {roster : Roster} {graded marked : List SubmissionId} {wanted : List AssignmentId}
    {pending : List Submission} {assignment : Assignment} (asked : assignment.id ∈ wanted)
    (same : ∀ row ∈ pending, row.assignment = assignment.id → assignment.awaitsModeration = true →
      (row.id ∈ graded ↔ row.id ∈ marked)) :
    item? roster graded (pending.filter fun row => wanted.contains row.assignment) assignment =
      item? roster marked pending assignment := by
  have counted : (pending.filter fun row => wanted.contains row.assignment).countP
      (counts roster graded assignment) = pending.countP (counts roster marked assignment) := by
    rw [List.countP_filter]
    refine List.countP_congr fun row member => ?_
    by_cases own : row.assignment = assignment.id
    · by_cases awaits : assignment.awaitsModeration = true
      · simp [counts, own, asked, awaits, same row member own awaits]
      · simp [counts, own, asked, awaits]
    · simp [counts, own]
  simp only [item?, counted]

theorem assignmentOf?_eq_some {assignment : Assignment}
    (member : assignment ∈ query.candidates deployment ignored shard courses) :
    assignmentOf? (query.candidates deployment ignored shard courses) assignment.id =
      some assignment :=
  (find?_key_eq_some (Ranked.nodup_map_indexBy _)).mpr ⟨member, rfl⟩

theorem outcome_provisionallyGraded (online : shard ∉ deployment.offline) (pending : List Submission) :
    ∃ ids, (query.provisionallyGraded deployment shard
        (query.candidates deployment ignored shard courses) pending).outcome = .ok ids ∧
      ∀ assignment ∈ query.candidates deployment ignored shard courses, ∀ row ∈ pending,
        row.assignment = assignment.id → assignment.awaitsModeration = true →
          (row.id ∈ ids ↔ row.id ∈ query.gradedOn deployment shard) := by
  unfold provisionallyGraded
  have moderated {assignment : Assignment} {row : Submission} (own : row.assignment = assignment.id)
      (member : assignment ∈ query.candidates deployment ignored shard courses)
      (awaits : assignment.awaitsModeration = true) (listed : row ∈ pending) :
      row ∈ pending.filter fun row =>
        (assignmentOf? (query.candidates deployment ignored shard courses) row.assignment).any
          Assignment.awaitsModeration := by
    rw [List.mem_filter, own,
      query.assignmentOf?_eq_some deployment ignored shard courses member]
    exact ⟨listed, awaits⟩
  dsimp only
  split
  · rename_i empty
    refine ⟨[], rfl, fun assignment member row listed own awaits => ?_⟩
    have kept := moderated own member awaits listed
    rw [List.isEmpty_iff.mp empty] at kept
    cases kept
  · simp only [Metered.outcome_bind, Metered.outcome_pure, Except.bind,
      Deployment.outcome_readProvisionalGrades_online online]
    refine ⟨_, rfl, fun assignment member row listed own awaits => ?_⟩
    have same := contains_map_filter ProvisionalGrade.submission
      (List.mem_map_of_mem (f := Submission.id) (moderated own member awaits listed))
      (fun grade => grade.scorer = query.user) (deployment.tables.gradesOn shard)
    simpa [List.contains_eq_mem, gradedOn] using same

theorem outcome_onShard :
    (query.onShard deployment ignored shard courses).outcome =
      (deployment.read shard).outcome.map fun _ => query.found deployment ignored shard courses := by
  by_cases offline : shard ∈ deployment.offline
  · simp [onShard, checkpointCourses, Deployment.readCourses, Deployment.outcome_read_offline offline,
      Except.bind, Except.map]
  simp only [onShard, Metered.outcome_bind, outcome_checkpointCourses offline, Except.bind, Except.map,
    Deployment.outcome_readAssignments_online offline, deployment.outcome_read offline]
  rw [← candidates]
  split
  · rename_i empty
    simp [found, List.isEmpty_iff.mp empty]
  have pending : ((deployment.tables.submissionsOn shard none).filter fun row =>
      ((query.candidates deployment ignored shard courses).map (·.id)).contains row.assignment).filter
        (fun row => row.isActive && row.needsGrading) =
      (deployment.tables.pendingOn shard).filter fun row =>
        ((query.candidates deployment ignored shard courses).map (·.id)).contains row.assignment :=
    List.filter_comm ..
  simp only [Metered.outcome_bind, Deployment.outcome_readSubmissions_online offline, Except.bind]
  rw [pending]
  split
  · rename_i empty
    refine congrArg Except.ok (Eq.symm (List.filterMap_eq_nil_iff.mpr fun assignment member => ?_))
    rw [← item?_congr (List.mem_map_of_mem member) fun _ _ _ _ => Iff.rfl, List.isEmpty_iff.mp empty]
    rfl
  obtain ⟨ids, read, same⟩ := query.outcome_provisionallyGraded deployment ignored shard courses offline
    ((deployment.tables.pendingOn shard).filter fun row =>
      ((query.candidates deployment ignored shard courses).map (·.id)).contains row.assignment)
  simp only [Metered.outcome_bind, Deployment.outcome_readEnrollments_online offline, read, Except.bind,
    Metered.outcome_pure]
  refine congrArg Except.ok (List.filterMap_congr fun assignment member => ?_)
  refine item?_congr (List.mem_map_of_mem member) fun row listed own awaits =>
    same assignment member row ?_ own awaits
  rw [List.mem_filter, own, List.contains_eq_mem, decide_eq_true_eq]
  exact ⟨listed, List.mem_map_of_mem member⟩

end Grading

namespace Moderation

variable (query : Moderation) (deployment : Deployment) (ignored : List GlobalId) (shard : ShardId)
  (courses : List CourseId)

def candidatesOn : List Assignment :=
  indexBy (·.id) ((deployment.tables.assignmentsOn shard
    { courses := courses, subAssignments := false, awaitingModeration := true }).filter
      (query.isCandidate ignored))

def pendingOn : List Submission :=
  indexBy (·.id) ((deployment.tables.pendingOn shard).filter fun row =>
    ((query.candidatesOn deployment ignored shard courses).map (·.id)).contains row.assignment)

def gradedOn : List AssignmentId :=
  provisionallyGraded (query.pendingOn deployment ignored shard courses)
    (deployment.tables.gradesOn shard)

def found : List AssignmentTodo :=
  ((query.candidatesOn deployment ignored shard courses).filter fun row =>
    (query.gradedOn deployment ignored shard courses).contains row.id).map fun row =>
      ⟨row, row.due, none⟩

theorem provisionallyGraded_filter (pending : List Submission) (grades : List ProvisionalGrade) :
    provisionallyGraded pending (grades.filter fun row =>
      (pending.map (·.id)).contains row.submission) = provisionallyGraded pending grades := by
  rw [provisionallyGraded, provisionallyGraded, List.filterMap_filter]
  refine List.filterMap_congr fun grade _ => ?_
  by_cases listed : (pending.map (·.id)).contains grade.submission = true
  · rw [if_pos listed]
  · have missing : pending.find? (fun row => row.id = grade.submission) = none := by
      rw [List.find?_eq_none]
      intro row member
      have differs : row.id ≠ grade.submission := fun same => listed (by
        rw [List.contains_eq_mem, decide_eq_true_eq, ← same]
        exact List.mem_map_of_mem member)
      simpa using differs
    rw [if_neg listed, missing]
    rfl

theorem outcome_onShard :
    (query.onShard deployment ignored shard courses).outcome =
      (deployment.read shard).outcome.map fun _ => query.found deployment ignored shard courses := by
  by_cases offline : shard ∈ deployment.offline
  · simp [onShard, Deployment.readAssignments, Deployment.outcome_read_offline offline, Except.bind,
      Except.map]
  simp only [onShard, Metered.outcome_bind, Except.bind, Except.map,
    Deployment.outcome_readAssignments_online offline, deployment.outcome_read offline]
  rw [← candidatesOn]
  split
  · rename_i empty
    simp [found, List.isEmpty_iff.mp empty]
  have pending : ((deployment.tables.submissionsOn shard none).filter fun row =>
      ((query.candidatesOn deployment ignored shard courses).map (·.id)).contains
        row.assignment).filter (fun row => row.isActive && row.needsGrading) =
      (deployment.tables.pendingOn shard).filter fun row =>
        ((query.candidatesOn deployment ignored shard courses).map (·.id)).contains row.assignment :=
    List.filter_comm ..
  simp only [Metered.outcome_bind, Deployment.outcome_readSubmissions_online offline, Except.bind]
  rw [pending, ← pendingOn]
  split
  · rename_i empty
    have none : query.gradedOn deployment ignored shard courses = [] := by
      rw [gradedOn, provisionallyGraded, List.isEmpty_iff.mp empty]
      exact List.filterMap_eq_nil_iff.mpr fun _ _ => rfl
    simp [found, none]
  · simp only [Metered.outcome_bind, Deployment.outcome_readProvisionalGrades_online offline,
      Except.bind, Metered.outcome_pure, provisionallyGraded_filter]
    rfl

end Moderation

namespace Reviews

variable (query : Reviews) (deployment : Deployment) (ignored : List GlobalId) (shard : ShardId)
  (courses : List CourseId)

def reviewedOn : List Assignment :=
  indexBy (·.id) ((deployment.tables.assignmentsOn shard
    { courses := courses, subAssignments := false }).filter (·.peerReviews))

def activeOn : List Submission :=
  indexBy (·.id) (((deployment.tables.submissionsOn shard none).filter fun row =>
    ((reviewedOn deployment shard courses).map (·.id)).contains row.assignment).filter
      Submission.isActive)

def found : List PeerReviewTodo :=
  (query.requested deployment false ignored shard courses).filterMap
    (query.item? (reviewedOn deployment shard courses) (activeOn deployment shard courses)
      (deployment.tables.enrollmentsOn shard courses))

theorem outcome_onShard :
    (query.onShard deployment false ignored shard courses).outcome =
      (deployment.read shard).outcome.map fun _ => query.found deployment ignored shard courses := by
  by_cases offline : shard ∈ deployment.offline
  · simp [onShard, Deployment.readPeerReviews, Deployment.outcome_read_offline offline, Except.bind,
      Except.map]
  simp only [onShard, Deployment.readPeerReviews, Metered.outcome_bind, Metered.outcome_pure,
    Except.bind, Except.map, deployment.outcome_read offline]
  rw [← requested]
  split
  · rename_i empty
    simp [found, List.isEmpty_iff.mp empty]
  · simp only [Metered.outcome_bind, Deployment.outcome_readAssignments_online offline,
      Deployment.outcome_readSubmissions_online offline,
      Deployment.outcome_readEnrollments_online offline, Except.bind, Metered.outcome_pure]
    rfl

end Reviews

namespace Viewing

variable (query : Viewing) (deployment : Deployment) (ignored : List GlobalId) (shard : ShardId)
  (contexts : List Context)

def foundTopics : List DiscussionTopic :=
  (deployment.tables.topicsOn shard contexts).filter (query.listsTopic deployment.now ignored)

def foundPages : List WikiPage :=
  (deployment.tables.pagesOn shard contexts).filter (query.listsPage ignored)

theorem outcome_topicsOnShard :
    (do
      let rows ← deployment.readTopics shard contexts
      return rows.filter (query.listsTopic deployment.now ignored)).outcome =
      (deployment.read shard).outcome.map fun _ =>
        query.foundTopics deployment ignored shard contexts := by
  by_cases offline : shard ∈ deployment.offline
  · simp [Deployment.readTopics, Deployment.outcome_read_offline offline, Except.bind, Except.map]
  · simp [Deployment.readTopics, deployment.outcome_read offline, Except.bind, Except.map,
      foundTopics, Tables.topicsOn]

theorem outcome_pagesOnShard :
    (do
      let rows ← deployment.readPages shard contexts
      return rows.filter (query.listsPage ignored)).outcome =
      (deployment.read shard).outcome.map fun _ =>
        query.foundPages deployment ignored shard contexts := by
  by_cases offline : shard ∈ deployment.offline
  · simp [Deployment.readPages, Deployment.outcome_read_offline offline, Except.bind, Except.map]
  · simp [Deployment.readPages, deployment.outcome_read offline, Except.bind, Except.map, foundPages,
      Tables.pagesOn]

end Viewing

end Agenda
