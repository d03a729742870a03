import Agenda.Needs.Gather

/-!
Peer reviews that a user has been asked to do. A review is listed while the reviewed work is there,
its assignment is published with peer reviews, and its author is still enrolled.
-/

namespace Agenda

structure Reviews where
  user : UserId
  options : NeedsOptions

namespace Reviews

/-- Some enrollment of the user in the course has not ended. -/
def isEnrolled (enrollments : List Enrollment) (course : CourseId) (user : UserId) : Bool :=
  enrollments.any fun row =>
    !row.state.isTerminated && row.course = course && row.user = user

def item? (query : Reviews) (assignments : List Assignment) (submissions : List Submission)
    (enrollments : List Enrollment) (request : PeerReview) : Option PeerReviewTodo := do
  let assignment ← assignments.find? fun row => row.id = request.assignment
  let submission ← submissions.find? fun row => row.id = request.submission
  if isEnrolled enrollments request.course request.user &&
      query.options.withinWindow submission.due then
    some ⟨request, assignment.title, submission.due⟩
  else none

def onShard (query : Reviews) (deployment : Deployment) (incompleteOnly : Bool)
    (ignored : List GlobalId) (shard : ShardId) (courses : List CourseId) :
    Metered (List PeerReviewTodo) := do
  let rows ← deployment.readPeerReviews shard query.user courses incompleteOnly
  let requests := rows.filter fun row => !ignored.contains row.id.global
  if requests.isEmpty then return []
  else
    let assignments ← deployment.readAssignments shard
      { courses := courses, subAssignments := false }
    let reviewed := indexBy (·.id) (assignments.filter (·.peerReviews))
    let submissions ← deployment.readSubmissions shard (reviewed.map (·.id)) none
    let active := indexBy (·.id) (submissions.filter Submission.isActive)
    let enrollments ← deployment.readEnrollments shard courses
    return requests.filterMap (query.item? reviewed active enrollments)

def list (query : Reviews) (deployment : Deployment) (scope : Scope) (incompleteOnly : Bool) :
    Metered (List PeerReviewTodo) := do
  let ignored ← ignoredIds deployment query.user .assessmentRequest .reviewing query.options
  gather scope.courses (query.onShard deployment incompleteOnly ignored)

end Reviews

end Agenda
