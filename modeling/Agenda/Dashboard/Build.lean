import Agenda.Dashboard.TodoList
import Agenda.Needs.Query

/-!
Building a dashboard: six cached queries, one bulk check of the permissions to grade, and one read
of course names for each shard.
-/

namespace Agenda

structure DashboardLimits where
  fetch : Nat := 100
  visible : Nat := 5
deriving DecidableEq, Repr

namespace TodoList

/-- A user has one of these on every course whose grading entries are shown. -/
def gradingPermissions : List Permission :=
  [.manageGrades, .viewAllGrades]

def merge (options : NeedsOptions) (first second : List AssignmentTodo) : List AssignmentTodo :=
  options.truncate (Listed.sort (first ++ second))

def fetchGrading (deployment : Deployment) (user : UserId) (options : NeedsOptions) :
    Session (List AssignmentTodo) := do
  let plain ← NeedsQuery.runCached (.grading .assignment) deployment user options
  let checkpoints ← NeedsQuery.runCached (.grading .subAssignment) deployment user options
  return merge options plain checkpoints

def fetchSubmitting (deployment : Deployment) (user : UserId) (options : NeedsOptions) :
    Session (List AssignmentTodo) := do
  let plain ← NeedsQuery.runCached (.submitting .assignment {}) deployment user options
  let checkpoints ← NeedsQuery.runCached (.submitting .subAssignment {}) deployment user options
  return merge options plain checkpoints

def gradingMatrix (deployment : Deployment) (user : UserId) (contexts : List Context) :
    Metered PermissionMatrix :=
  if contexts.isEmpty then return .empty
  else deployment.checkMany user contexts gradingPermissions

def readNames (deployment : Deployment) : List (ShardId × List Context) → Metered (List Course)
  | [] => return []
  | (shard, contexts) :: rest => do
      let first ← deployment.readCourses shard (contexts.filterMap Context.course?)
      let others ← readNames deployment rest
      return first ++ others

/-- The name of the last row of a context, or the text that stands for it. -/
def nameIn (courses : List Course) (context : Context) : String :=
  match courses.reverse.find? fun row => .course row.id = context with
  | some row => row.name
  | none => context.assetText

def build (deployment : Deployment) (limits : DashboardLimits) (user : UserId) :
    Session TodoList := do
  let options : NeedsOptions := { limit := some limits.fetch }
  let grading ← fetchGrading deployment user options
  let moderation : List AssignmentTodo ← NeedsQuery.runCached .moderation deployment user options
  let submitting ← fetchSubmitting deployment user options
  let reviewing : List PeerReviewTodo ← NeedsQuery.runCached .reviews deployment user options
  let contexts := sortedDistinct
    ((grading ++ moderation ++ submitting).map Listed.context ++
      reviewing.map Listed.context)
  let matrix ← Session.ofMetered (gradingMatrix deployment user contexts)
  let permitted := grading.filter fun item =>
    matrix.allowsAny (Listed.context item) gradingPermissions
  let courses ← Session.ofMetered
    (readNames deployment (ShardPartition.ofList contexts).parts)
  let nameOf := nameIn courses
  return {
    entries := fun
      | .grading => permitted.map (TodoEntry.ofAssignment .grading nameOf)
      | .moderation => moderation.map (TodoEntry.ofAssignment .moderation nameOf)
      | .submitting => submitting.map (TodoEntry.ofAssignment .submitting nameOf)
      | .reviewing => reviewing.map (TodoEntry.ofReview nameOf)
    visibleLimit := limits.visible }

end TodoList

end Agenda
