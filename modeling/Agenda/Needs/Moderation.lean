import Agenda.Needs.Gather

/-!
Moderated assignments whose final grades a user has to choose. The permission to choose is checked
one assignment at a time, after the list is sorted, and no further than the limit needs.
-/

namespace Agenda

/-- Keeps the items that pass a check, in order, up to a number of them; without a number every
item is checked. -/
def keepPassing {ι : Type} (check : ι → Metered Bool) : Option Nat → List ι → Metered (List ι)
  | some 0, _ => return []
  | _, [] => return []
  | cap, item :: rest => do
      let passes ← check item
      if passes then
        let others ← keepPassing check (cap.map fun count => count - 1) rest
        return item :: others
      else keepPassing check cap rest

structure Moderation where
  user : UserId
  options : NeedsOptions

namespace Moderation

def isCandidate (query : Moderation) (ignored : List GlobalId) (row : Assignment) : Bool :=
  row.expectsSubmission && row.awaitsModeration && row.finalGrader = some query.user &&
    !ignored.contains row.id.global && query.options.withinWindow row.due

def provisionallyGraded (pending : List Submission) (grades : List ProvisionalGrade) :
    List AssignmentId :=
  grades.filterMap fun grade =>
    (pending.find? fun row => row.id = grade.submission).map (·.assignment)

def onShard (query : Moderation) (deployment : Deployment) (ignored : List GlobalId)
    (shard : ShardId) (courses : List CourseId) : Metered (List AssignmentTodo) := do
  let rows ← deployment.readAssignments shard
    { courses := courses, subAssignments := false, awaitingModeration := true }
  let candidates := indexBy (·.id) (rows.filter (query.isCandidate ignored))
  if candidates.isEmpty then return []
  else
    let submissions ← deployment.readSubmissions shard (candidates.map (·.id)) none
    let pending := indexBy (·.id)
      (submissions.filter fun row => row.isActive && row.needsGrading)
    if pending.isEmpty then return []
    else
      let grades ← deployment.readProvisionalGrades shard (pending.map (·.id))
      let graded := provisionallyGraded pending grades
      return (candidates.filter fun row => graded.contains row.id).map fun row =>
        ⟨row, row.due, none⟩

def candidates (query : Moderation) (deployment : Deployment) (scope : Scope) :
    Metered (List AssignmentTodo) := do
  let ignored ← ignoredIds deployment query.user .assignment .moderation query.options
  gather scope.courses (query.onShard deployment ignored)

/-- The candidates whose course lets the user choose final grades, up to a number of them. -/
def list (query : Moderation) (deployment : Deployment) (scope : Scope) (cap : Option Nat) :
    Metered (List AssignmentTodo) := do
  let candidates ← query.candidates deployment scope
  keepPassing
    (fun item => deployment.checkOne query.user (Listed.context item) .selectFinalGrade)
    cap candidates

end Moderation

end Agenda
