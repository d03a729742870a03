import Agenda.Json.Record
import Agenda.Shard
import Agenda.Time.Rfc3339

/-!
Peer reviews: requests that one student looks at the work of another.
-/

namespace Agenda

inductive PeerReviewState where
  | assigned
  | completed
deriving DecidableEq, Repr

instance : Vocabulary PeerReviewState where
  all := [.assigned, .completed]
  name
    | .assigned => "assigned"
    | .completed => "completed"

structure PeerReview where
  id : ReviewId
  assessor : UserId
  /-- Whose work is reviewed. -/
  user : UserId
  submission : SubmissionId
  assignment : AssignmentId
  course : CourseId
  state : PeerReviewState
  updated : Instant

namespace PeerReview

def format : RecordFormat PeerReview PeerReview :=
  PeerReview.mk
    <$> .field "id" id .required
    <*> .field "assessor_id" assessor .required
    <*> .field "user_id" user .required
    <*> .field "submission_id" submission .required
    <*> .field "assignment_id" assignment .required
    <*> .field "course_id" course .required
    <*> .field "workflow_state" state .required
    <*> .field "updated_at" updated .required

instance : JsonFormat PeerReview := format.jsonFormat

end PeerReview

end Agenda
