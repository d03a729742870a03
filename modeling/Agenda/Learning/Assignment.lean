import Agenda.Learning.DueDate
import Agenda.Purpose

/-!
Assignments, and the checkpoints that a discussion assignment is split into.
-/

namespace Agenda

inductive AssignmentState where
  | unpublished
  | published
  | deleted
deriving DecidableEq, Repr

instance : Vocabulary AssignmentState where
  all := [.unpublished, .published, .deleted]
  name
    | .unpublished => "unpublished"
    | .published => "published"
    | .deleted => "deleted"

inductive SubmissionType where
  | onlineTextEntry
  | onlineUpload
  | onlineUrl
  | onlineQuiz
  | discussionTopic
  | mediaRecording
  | externalTool
  | onPaper
  | none
  | notGraded
  | wikiPage
deriving DecidableEq, Repr

namespace SubmissionType

instance : Vocabulary SubmissionType where
  all := [.onlineTextEntry, .onlineUpload, .onlineUrl, .onlineQuiz, .discussionTopic,
    .mediaRecording, .externalTool, .onPaper, .none, .notGraded, .wikiPage]
  name
    | .onlineTextEntry => "online_text_entry"
    | .onlineUpload => "online_upload"
    | .onlineUrl => "online_url"
    | .onlineQuiz => "online_quiz"
    | .discussionTopic => "discussion_topic"
    | .mediaRecording => "media_recording"
    | .externalTool => "external_tool"
    | .onPaper => "on_paper"
    | .none => "none"
    | .notGraded => "not_graded"
    | .wikiPage => "wiki_page"

def expectsSubmission : SubmissionType → Bool
  | .onPaper | .none | .notGraded | .wikiPage => false
  | .onlineTextEntry | .onlineUpload | .onlineUrl | .onlineQuiz | .discussionTopic
  | .mediaRecording | .externalTool => true

end SubmissionType

structure Assignment where
  id : AssignmentId
  course : CourseId
  title : String
  state : AssignmentState
  submissionTypes : List SubmissionType
  due : Option Instant
  unlock : Option Instant
  lock : Option Instant
  updated : Instant
  audience : Option (List UserId)
  suppressed : Bool
  moderated : Bool
  finalGrader : Option UserId
  gradesPublished : Bool
  peerReviews : Bool
  hasSubAssignments : Bool
  parent : Option AssignmentId

namespace Assignment

def format : RecordFormat Assignment Assignment :=
  Assignment.mk
    <$> .field "id" id .required
    <*> .field "course_id" course .required
    <*> .field "title" title .required
    <*> .field "workflow_state" state .required
    <*> .field "submission_types" submissionTypes (.withDefault [])
    <*> .field "due_at" due (.withDefault none)
    <*> .field "unlock_at" unlock (.withDefault none)
    <*> .field "lock_at" lock (.withDefault none)
    <*> .field "updated_at" updated .required
    <*> .field "visible_to" audience (.withDefault none)
    <*> .field "suppressed" suppressed (.withDefault false)
    <*> .field "moderated_grading" moderated (.withDefault false)
    <*> .field "final_grader_id" finalGrader (.withDefault none)
    <*> .field "grades_published" gradesPublished (.withDefault false)
    <*> .field "peer_reviews" peerReviews (.withDefault false)
    <*> .field "has_sub_assignments" hasSubAssignments (.withDefault false)
    <*> .field "parent_assignment_id" parent (.withDefault none)

instance : JsonFormat Assignment := format.jsonFormat

def isPublished (assignment : Assignment) : Bool :=
  assignment.state = .published

def isActive (assignment : Assignment) : Bool :=
  assignment.state ≠ .deleted

def isSubAssignment (assignment : Assignment) : Bool :=
  assignment.parent.isSome

/-- Students are expected to turn something in: there is a type of submission, and work of each
type is turned in through the system. -/
def expectsSubmission (assignment : Assignment) : Bool :=
  !assignment.submissionTypes.isEmpty &&
    assignment.submissionTypes.all SubmissionType.expectsSubmission

def isVisibleTo (assignment : Assignment) (user : UserId) : Bool :=
  meantFor assignment.audience user

def baseDates (assignment : Assignment) : EffectiveDates :=
  ⟨assignment.due, assignment.unlock, assignment.lock⟩

def awaitsModeration (assignment : Assignment) : Bool :=
  assignment.moderated && !assignment.gradesPublished

end Assignment

inductive AssignmentKind where
  | assignment
  | subAssignment
deriving DecidableEq, Repr

namespace AssignmentKind

instance : Vocabulary AssignmentKind where
  all := [.assignment, .subAssignment]
  name
    | .assignment => "assignment"
    | .subAssignment => "sub_assignment"

def objectKind : AssignmentKind → ObjectKind
  | .assignment => .assignment
  | .subAssignment => .subAssignment

/-- Whether an assignment is listed by this half. In a course with checkpoints a parent is listed
through its checkpoints only; elsewhere checkpoints are not listed. -/
def admits (kind : AssignmentKind) (assignment : Assignment) (checkpointCourses : List CourseId) :
    Bool :=
  let checkpoints := checkpointCourses.contains assignment.course
  match kind with
  | .assignment =>
      !assignment.isSubAssignment && !(checkpoints && assignment.hasSubAssignments)
  | .subAssignment => assignment.isSubAssignment && checkpoints

end AssignmentKind

end Agenda
