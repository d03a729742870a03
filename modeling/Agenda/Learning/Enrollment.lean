import Agenda.Json.Record
import Agenda.Shard

/-!
Enrollments of users in courses, and the memberships that the directory reports of a user.
-/

namespace Agenda

inductive EnrollmentRole where
  | student
  | studentView
  | teacher
  | ta
  | designer
  | observer
deriving DecidableEq, Repr

namespace EnrollmentRole

instance : Vocabulary EnrollmentRole where
  all := [.student, .studentView, .teacher, .ta, .designer, .observer]
  name
    | .student => "student"
    | .studentView => "student_view"
    | .teacher => "teacher"
    | .ta => "ta"
    | .designer => "designer"
    | .observer => "observer"

def isStudent : EnrollmentRole → Bool
  | .student | .studentView => true
  | .teacher | .ta | .designer | .observer => false

def isInstructor : EnrollmentRole → Bool
  | .teacher | .ta => true
  | .student | .studentView | .designer | .observer => false

end EnrollmentRole

inductive EnrollmentState where
  | active
  | invited
  | creationPending
  | completed
  | inactive
  | rejected
  | deleted
deriving DecidableEq, Repr

namespace EnrollmentState

instance : Vocabulary EnrollmentState where
  all := [.active, .invited, .creationPending, .completed, .inactive, .rejected, .deleted]
  name
    | .active => "active"
    | .invited => "invited"
    | .creationPending => "creation_pending"
    | .completed => "completed"
    | .inactive => "inactive"
    | .rejected => "rejected"
    | .deleted => "deleted"

def isTerminated : EnrollmentState → Bool
  | .completed | .inactive | .rejected | .deleted => true
  | .active | .invited | .creationPending => false

end EnrollmentState

structure Enrollment where
  user : UserId
  course : CourseId
  courseSection : SectionId
  role : EnrollmentRole
  state : EnrollmentState
  limitedToSection : Bool
deriving DecidableEq, Repr

namespace Enrollment

def format : RecordFormat Enrollment Enrollment :=
  Enrollment.mk
    <$> .field "user_id" user .required
    <*> .field "course_id" course .required
    <*> .field "section_id" courseSection .required
    <*> .field "role" role .required
    <*> .field "workflow_state" state .required
    <*> .field "limit_privileges_to_course_section" limitedToSection (.withDefault false)

instance : JsonFormat Enrollment := format.jsonFormat

def isActive (enrollment : Enrollment) : Bool :=
  enrollment.state = .active

end Enrollment

structure Membership where
  course : CourseId
  role : EnrollmentRole
  state : EnrollmentState
  concluded : Bool
deriving DecidableEq, Repr

namespace Membership

def format : RecordFormat Membership Membership :=
  Membership.mk
    <$> .field "course_id" course .required
    <*> .field "role" role .required
    <*> .field "workflow_state" state .required
    <*> .field "course_concluded" concluded (.withDefault false)

instance : JsonFormat Membership := format.jsonFormat

/-- Active in a course that is not over. -/
def isCurrent (membership : Membership) : Bool :=
  membership.state = .active && !membership.concluded

end Membership

/-- The memberships of one user. A user may have several such rows. -/
structure UserMemberships where
  user : UserId
  courses : List Membership
  groups : List GroupId
deriving DecidableEq, Repr

namespace UserMemberships

def format : RecordFormat UserMemberships UserMemberships :=
  UserMemberships.mk
    <$> .field "user_id" user .required
    <*> .field "courses" courses (.withDefault [])
    <*> .field "groups" groups (.withDefault [])

instance : JsonFormat UserMemberships := format.jsonFormat

end UserMemberships

end Agenda
