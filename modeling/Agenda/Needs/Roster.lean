import Agenda.Learning.Enrollment

/-!
Rosters: which students of a course a grader may see. A grader all of whose active enrollments in a
course are limited to their sections sees the students of those sections only.
-/

namespace Agenda

structure Roster where
  grader : UserId
  enrollments : List Enrollment

namespace Roster

def graderRows (roster : Roster) (course : CourseId) : List Enrollment :=
  roster.enrollments.filter fun row =>
    row.isActive && row.user = roster.grader && row.course = course

def studentRows (roster : Roster) (course : CourseId) (student : UserId) : List Enrollment :=
  roster.enrollments.filter fun row =>
    row.isActive && row.user ≠ roster.grader && row.role.isStudent && row.course = course &&
      row.user = student

/-- No section limits what the grader sees in the course. -/
def isUnlimited (roster : Roster) (course : CourseId) : Bool :=
  let rows := roster.graderRows course
  rows.isEmpty || rows.any fun row => !row.limitedToSection

def admits (roster : Roster) (course : CourseId) (student : UserId) : Bool :=
  let rows := roster.studentRows course student
  !rows.isEmpty &&
    (roster.isUnlimited course ||
      (roster.graderRows course).any fun own =>
        rows.any fun row => row.courseSection = own.courseSection)

end Roster

end Agenda
