import Agenda.Needs.Gather

/-!
Assignments that a student still has to submit.
-/

namespace Agenda

structure Submitting where
  kind : AssignmentKind
  choice : SubmittingOptions
  user : UserId
  options : NeedsOptions

namespace Submitting

def isCandidate (query : Submitting) (ignored : List GlobalId) (checkpoints : List CourseId)
    (row : Assignment) : Bool :=
  query.kind.admits row checkpoints && row.isVisibleTo query.user && !row.suppressed &&
    (query.choice.includeUngraded || row.expectsSubmission) && !ignored.contains row.id.global

/-- The item of a candidate with its dates: not locked, due in the window, and not turned in
unless its due date is still to come. -/
def item? (query : Submitting) (now : Instant) (overrides : List DueDateOverride)
    (turnedIn : List AssignmentId) (row : Assignment) : Option AssignmentTodo :=
  let dates := (DueDateOverride.datesOf? overrides (.assignment row.id)).getD row.baseDates
  let isOpen := query.choice.includeLocked || !dates.isLocked now
  let isDone := turnedIn.contains row.id && !dates.due.any fun due => decide (now < due)
  if isOpen && query.options.withinWindow dates.due && !isDone then some ⟨row, dates.due, none⟩
  else none

def onShard (query : Submitting) (deployment : Deployment) (ignored : List GlobalId)
    (shard : ShardId) (courses : List CourseId) : Metered (List AssignmentTodo) := do
  let checkpoints ← checkpointCourses deployment shard courses
  let rows ← deployment.readAssignments shard
    { courses := courses, subAssignments := query.kind = .subAssignment }
  let candidates := rows.filter (query.isCandidate ignored checkpoints)
  if candidates.isEmpty then return []
  else
    let overrides ← deployment.readOverrides shard query.user
      (candidates.map fun row => .assignment row.id)
    let submissions ← deployment.readSubmissions shard (candidates.map (·.id)) (some query.user)
    let turnedIn := (submissions.filter fun row => row.isActive && row.isTurnedIn).map
      (·.assignment)
    return candidates.filterMap (query.item? deployment.now overrides turnedIn)

def list (query : Submitting) (deployment : Deployment) (scope : Scope) :
    Metered (List AssignmentTodo) := do
  let ignored ← ignoredIds deployment query.user query.kind.objectKind .submitting query.options
  gather scope.courses (query.onShard deployment ignored)

end Submitting

end Agenda
