import Agenda.Learning.Assignment

/-!
Submissions of work to assignments, and the provisional grades that graders give them.
-/

namespace Agenda

inductive SubmissionState where
  | unsubmitted
  | submitted
  | pendingReview
  | graded
  | deleted
deriving DecidableEq, Repr

instance : Vocabulary SubmissionState where
  all := [.unsubmitted, .submitted, .pendingReview, .graded, .deleted]
  name
    | .unsubmitted => "unsubmitted"
    | .submitted => "submitted"
    | .pendingReview => "pending_review"
    | .graded => "graded"
    | .deleted => "deleted"

structure Submission where
  id : SubmissionId
  assignment : AssignmentId
  user : UserId
  state : SubmissionState
  type : Option SubmissionType
  excused : Bool
  scored : Bool
  gradeIsCurrent : Bool
  due : Option Instant

namespace Submission

def format : RecordFormat Submission Submission :=
  Submission.mk
    <$> .field "id" id .required
    <*> .field "assignment_id" assignment .required
    <*> .field "user_id" user .required
    <*> .field "workflow_state" state .required
    <*> .field "submission_type" type (.withDefault none)
    <*> .field "excused" excused (.withDefault false)
    <*> .field "scored" scored (.withDefault false)
    <*> .field "grade_matches_current_submission" gradeIsCurrent (.withDefault false)
    <*> .field "cached_due_date" due (.withDefault none)

instance : JsonFormat Submission := format.jsonFormat

def isActive (submission : Submission) : Bool :=
  submission.state ≠ .deleted

def isTurnedIn (submission : Submission) : Bool :=
  submission.type.isSome &&
    match submission.state with
    | .submitted | .pendingReview | .graded => true
    | .unsubmitted | .deleted => false

/-- Work was turned in that has no grade, or only one of an earlier attempt. -/
def needsGrading (submission : Submission) : Bool :=
  submission.type.isSome && !submission.excused &&
    match submission.state with
    | .pendingReview => true
    | .submitted | .graded => !submission.scored || !submission.gradeIsCurrent
    | .unsubmitted | .deleted => false

end Submission

structure ProvisionalGrade where
  submission : SubmissionId
  scorer : UserId
deriving DecidableEq, Repr

namespace ProvisionalGrade

def format : RecordFormat ProvisionalGrade ProvisionalGrade :=
  ProvisionalGrade.mk
    <$> .field "submission_id" submission .required
    <*> .field "scorer_id" scorer .required

instance : JsonFormat ProvisionalGrade := format.jsonFormat

end ProvisionalGrade

end Agenda
