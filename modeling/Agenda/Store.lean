import Agenda.Deployment

/-!
Reads of one shard. A read answers with rows that the shard owns, and counts even if the shard
cannot be read.
-/

namespace Agenda

structure AssignmentQuery where
  courses : List CourseId
  subAssignments : Bool
  awaitingModeration : Bool := false

namespace AssignmentQuery

def admits (query : AssignmentQuery) (row : Assignment) : Bool :=
  query.courses.contains row.course && row.isPublished &&
    row.isSubAssignment == query.subAssignments &&
    (!query.awaitingModeration || row.awaitsModeration)

end AssignmentQuery

namespace Deployment

def read (deployment : Deployment) (shard : ShardId) : Metered Tables :=
  .spend { reads := 1 }
    (if deployment.offline.contains shard then
      .error (ServiceFailure.storeConnection shard "shard offline").toError
    else .ok deployment.tables)

def readCourses (deployment : Deployment) (shard : ShardId) (ids : List CourseId) :
    Metered (List Course) := do
  let tables ← deployment.read shard
  return tables.courses.filter fun row => row.id.shard = shard && ids.contains row.id

def readAssignments (deployment : Deployment) (shard : ShardId) (query : AssignmentQuery) :
    Metered (List Assignment) := do
  let tables ← deployment.read shard
  return tables.assignments.filter fun row => row.id.shard = shard && query.admits row

def readSubmissions (deployment : Deployment) (shard : ShardId) (assignments : List AssignmentId)
    (user : Option UserId) : Metered (List Submission) := do
  let tables ← deployment.read shard
  return tables.submissions.filter fun row =>
    row.id.shard = shard && assignments.contains row.assignment &&
      user.all fun user => row.user = user

def readEnrollments (deployment : Deployment) (shard : ShardId) (courses : List CourseId) :
    Metered (List Enrollment) := do
  let tables ← deployment.read shard
  return tables.enrollments.filter fun row =>
    row.course.shard = shard && courses.contains row.course

def readProvisionalGrades (deployment : Deployment) (shard : ShardId)
    (submissions : List SubmissionId) : Metered (List ProvisionalGrade) := do
  let tables ← deployment.read shard
  return tables.provisionalGrades.filter fun row =>
    row.submission.shard = shard && submissions.contains row.submission

def readOverrides (deployment : Deployment) (shard : ShardId) (user : UserId)
    (targets : List OverrideTarget) : Metered (List DueDateOverride) := do
  let tables ← deployment.read shard
  return tables.overrides.filter fun row =>
    row.target.shard = shard && row.user = user && targets.contains row.target

def readQuizzes (deployment : Deployment) (shard : ShardId) (courses : List CourseId) :
    Metered (List Quiz) := do
  let tables ← deployment.read shard
  return tables.quizzes.filter fun row => row.id.shard = shard && courses.contains row.course

def readQuizAttempts (deployment : Deployment) (shard : ShardId) (user : UserId)
    (quizzes : List QuizId) : Metered (List QuizAttempt) := do
  let tables ← deployment.read shard
  return tables.quizAttempts.filter fun row =>
    row.quiz.shard = shard && row.user = user && quizzes.contains row.quiz

def readPeerReviews (deployment : Deployment) (shard : ShardId) (assessor : UserId)
    (courses : List CourseId) (incompleteOnly : Bool) : Metered (List PeerReview) := do
  let tables ← deployment.read shard
  return tables.peerReviews.filter fun row =>
    row.id.shard = shard && row.assessor = assessor && courses.contains row.course &&
      (!incompleteOnly || row.state = .assigned)

def readTopics (deployment : Deployment) (shard : ShardId) (contexts : List Context) :
    Metered (List DiscussionTopic) := do
  let tables ← deployment.read shard
  return tables.topics.filter fun row => row.id.shard = shard && contexts.contains row.context

def readPages (deployment : Deployment) (shard : ShardId) (contexts : List Context) :
    Metered (List WikiPage) := do
  let tables ← deployment.read shard
  return tables.pages.filter fun row => row.id.shard = shard && contexts.contains row.context

/-- The ignores of a user for a purpose; they live on the shard of the user. -/
def readIgnores (deployment : Deployment) (user : UserId) (purpose : Purpose) :
    Metered (List Ignore) := do
  let tables ← deployment.read user.shard
  return tables.ignores.filter fun row => row.user = user && row.purpose = purpose

end Deployment

end Agenda
