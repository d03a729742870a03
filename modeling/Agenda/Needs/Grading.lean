import Agenda.Needs.Gather
import Agenda.Needs.Roster

/-!
Assignments with submissions that wait for a grader, and how many of them.
-/

namespace Agenda

structure Grading where
  kind : AssignmentKind
  user : UserId
  options : NeedsOptions

namespace Grading

def isCandidate (query : Grading) (ignored : List GlobalId) (checkpoints : List CourseId)
    (row : Assignment) : Bool :=
  query.kind.admits row checkpoints && row.expectsSubmission &&
    !ignored.contains row.id.global && query.options.withinWindow row.due

def assignmentOf? (assignments : List Assignment) (id : AssignmentId) : Option Assignment :=
  assignments.find? fun row => row.id = id

def provisionallyGraded (query : Grading) (deployment : Deployment) (shard : ShardId)
    (assignments : List Assignment) (pending : List Submission) :
    Metered (List SubmissionId) :=
  let moderated := pending.filter fun row =>
    (assignmentOf? assignments row.assignment).any Assignment.awaitsModeration
  if moderated.isEmpty then return []
  else do
    let grades ← deployment.readProvisionalGrades shard (moderated.map (·.id))
    return (grades.filter fun row => row.scorer = query.user).map (·.submission)

/-- A pending submission counts for its assignment: the grader may see its student, and has not
given it a provisional grade while grades are provisional. -/
def counts (roster : Roster) (graded : List SubmissionId) (assignment : Assignment)
    (row : Submission) : Bool :=
  row.assignment = assignment.id && roster.admits assignment.course row.user &&
    !(assignment.awaitsModeration && graded.contains row.id)

def item? (roster : Roster) (graded : List SubmissionId) (pending : List Submission)
    (assignment : Assignment) : Option AssignmentTodo :=
  let count := pending.countP (counts roster graded assignment)
  if 0 < count then some ⟨assignment, assignment.due, some count⟩ else none

def onShard (query : Grading) (deployment : Deployment) (ignored : List GlobalId)
    (shard : ShardId) (courses : List CourseId) : Metered (List AssignmentTodo) := do
  let checkpoints ← checkpointCourses deployment shard courses
  let rows ← deployment.readAssignments shard
    { courses := courses, subAssignments := query.kind = .subAssignment }
  let candidates := indexBy (·.id) (rows.filter (query.isCandidate ignored checkpoints))
  if candidates.isEmpty then return []
  else
    let submissions ← deployment.readSubmissions shard (candidates.map (·.id)) none
    let pending := submissions.filter fun row => row.isActive && row.needsGrading
    if pending.isEmpty then return []
    else
      let enrollments ← deployment.readEnrollments shard courses
      let graded ← query.provisionallyGraded deployment shard candidates pending
      return candidates.filterMap (item? ⟨query.user, enrollments⟩ graded pending)

def list (query : Grading) (deployment : Deployment) (scope : Scope) :
    Metered (List AssignmentTodo) := do
  let ignored ← ignoredIds deployment query.user query.kind.objectKind .grading query.options
  gather scope.courses (query.onShard deployment ignored)

end Grading

end Agenda
