import Agenda.Dashboard.Build
import Mathlib

/-!
What the entries of a dashboard carry, told from the listed rows and the course table, and how they
are written.
-/

namespace Agenda

/-- A course has the name of its last row, or the text of its asset if it has no row. -/
inductive CourseNamed (courses : List Course) (course : CourseId) : String → Prop
  | last (earlier : List Course) (row : Course) (later : List Course) :
      courses = earlier ++ row :: later → row.id = course → (∀ other ∈ later, other.id ≠ course) →
        CourseNamed courses course row.name
  | missing : (∀ row ∈ courses, row.id ≠ course) →
      CourseNamed courses course ("course_" ++ toString course.global.value)

theorem TodoList.nameIn_course (courses : List Course) (course : CourseId) :
    nameIn courses (.course course) =
      match courses.reverse.find? fun row => row.id = course with
      | some row => row.name
      | none => "course_" ++ toString course.global.value := by
  simp only [nameIn, Context.course.injEq]
  rfl

namespace CourseNamed

variable {courses : List Course} {course : CourseId}

theorem of_nameIn : CourseNamed courses course (TodoList.nameIn courses (.course course)) := by
  rw [TodoList.nameIn_course]
  cases found : courses.reverse.find? fun row => row.id = course with
  | none => exact .missing (by simpa using found)
  | some row =>
      obtain ⟨same, after, before, parts, others⟩ := List.find?_eq_some_iff_append.mp found
      have whole : courses = before.reverse ++ row :: after.reverse := by
        simpa using congrArg List.reverse parts
      exact .last before.reverse row after.reverse whole (by simpa using same) (by simpa using others)

theorem eq_nameIn {name : String} (named : CourseNamed courses course name) :
    name = TodoList.nameIn courses (.course course) := by
  rw [TodoList.nameIn_course]
  cases named with
  | last earlier row later whole same others =>
      have found : courses.reverse.find? (fun row => row.id = course) = some row :=
        List.find?_eq_some_iff_append.mpr
          ⟨by simpa using same, later.reverse, earlier.reverse, by simp [whole], by simpa using others⟩
      rw [found]
  | missing others =>
      have found : courses.reverse.find? (fun row => row.id = course) = none := by simpa using others
      rw [found]

end CourseNamed

namespace TodoEntry

/-- What an entry carries of an assignment. Its kind tells a checkpoint, which has a parent, from the
others, and its course has the name that the table gives it. -/
structure ShowsAssignment (courses : List Course) (purpose : Purpose) (item : AssignmentTodo)
    (entry : TodoEntry) : Prop where
  kind : entry.kind =
    match item.assignment.parent with
    | some _ => .subAssignment
    | none => .assignment
  purpose : entry.purpose = purpose
  id : entry.id = item.assignment.id.global
  title : entry.title = item.assignment.title
  due : entry.due = item.due
  needsGradingCount : entry.needsGradingCount = item.needsGradingCount
  context : entry.context = .course item.assignment.course
  contextName : CourseNamed courses item.assignment.course entry.contextName

structure ShowsReview (courses : List Course) (item : PeerReviewTodo) (entry : TodoEntry) : Prop where
  kind : entry.kind = .assessmentRequest
  purpose : entry.purpose = .reviewing
  id : entry.id = item.request.id.global
  title : entry.title = item.assignmentTitle
  due : entry.due = item.due
  needsGradingCount : entry.needsGradingCount = none
  context : entry.context = .course item.request.course
  contextName : CourseNamed courses item.request.course entry.contextName

theorem ofAssignment_shows (courses : List Course) (purpose : Purpose) (item : AssignmentTodo) :
    ShowsAssignment courses purpose item (ofAssignment purpose (TodoList.nameIn courses) item) where
  kind := by
    cases parent : item.assignment.parent <;>
      simp [ofAssignment, Assignment.isSubAssignment, parent]
  purpose := rfl
  id := rfl
  title := rfl
  due := rfl
  needsGradingCount := rfl
  context := rfl
  contextName := .of_nameIn

theorem ofReview_shows (courses : List Course) (item : PeerReviewTodo) :
    ShowsReview courses item (ofReview (TodoList.nameIn courses) item) where
  kind := rfl
  purpose := rfl
  id := rfl
  title := rfl
  due := rfl
  needsGradingCount := rfl
  context := rfl
  contextName := .of_nameIn

/-- A row, its purpose and the course table leave nothing of its entry open. -/
theorem ShowsAssignment.unique {courses : List Course} {purpose : Purpose} {item : AssignmentTodo}
    {first second : TodoEntry} (shown : ShowsAssignment courses purpose item first)
    (again : ShowsAssignment courses purpose item second) : first = second := by
  obtain ⟨kind, purpose, id, title, due, count, context, name⟩ := shown
  obtain ⟨kind', purpose', id', title', due', count', context', name'⟩ := again
  cases first
  cases second
  simp only [TodoEntry.mk.injEq]
  exact ⟨kind.trans kind'.symm, purpose.trans purpose'.symm, id.trans id'.symm,
    title.trans title'.symm, context.trans context'.symm,
    name.eq_nameIn.trans name'.eq_nameIn.symm, due.trans due'.symm,
    count.trans count'.symm⟩

def written (entry : TodoEntry) : Json :=
  .object ([
    ("kind", .string (Vocabulary.name entry.kind)),
    ("purpose", .string (Vocabulary.name entry.purpose)),
    ("id", .integer entry.id.value),
    ("title", .string entry.title),
    ("context", JsonFormat.encode entry.context),
    ("contextName", .string entry.contextName),
    ("dueAt", JsonFormat.encode entry.due)] ++
    (entry.needsGradingCount.map fun count => ("needsGradingCount", Json.natural count)).toList)

theorem encode_eq_written (entry : TodoEntry) : JsonFormat.encode entry = entry.written := by
  obtain ⟨kind, purpose, id, title, context, contextName, due, count⟩ := entry
  cases count <;> rfl

end TodoEntry

end Agenda
