import Agenda.Learning.PeerReview
import Agenda.Learning.Quiz
import Agenda.Learning.Submission
import Agenda.Learning.Viewable

/-!
The items of needs-queries, and the order in which they are listed: by due date, or last change if
there is none, and then by id.
-/

namespace Agenda

class Listed (ι : Type) where
  time : ι → Instant
  id : ι → GlobalId
  context : ι → Context

namespace Listed

variable {ι : Type} [Listed ι]

def noLater (left right : ι) : Bool :=
  let a := (time left).order
  let b := (time right).order
  decide (a < b) || (decide (a = b) && decide ((id left).value ≤ (id right).value))

/-- The items in their order; items of the same time and id keep theirs. -/
def sort (items : List ι) : List ι :=
  items.mergeSort noLater

end Listed

structure AssignmentTodo where
  assignment : Assignment
  due : Option Instant
  needsGradingCount : Option Nat

namespace AssignmentTodo

def format : RecordFormat AssignmentTodo AssignmentTodo :=
  AssignmentTodo.mk
    <$> .field "assignment" assignment .required
    <*> .field "due_at" due .optional
    <*> .field "needs_grading_count" needsGradingCount .optional

instance : JsonFormat AssignmentTodo := format.jsonFormat

instance : Listed AssignmentTodo where
  time item := item.due.getD item.assignment.updated
  id item := item.assignment.id.global
  context item := .course item.assignment.course

end AssignmentTodo

structure QuizTodo where
  quiz : Quiz
  due : Option Instant

namespace QuizTodo

def format : RecordFormat QuizTodo QuizTodo :=
  QuizTodo.mk
    <$> .field "quiz" quiz .required
    <*> .field "due_at" due .optional

instance : JsonFormat QuizTodo := format.jsonFormat

instance : Listed QuizTodo where
  time item := item.due.getD item.quiz.updated
  id item := item.quiz.id.global
  context item := .course item.quiz.course

end QuizTodo

structure PeerReviewTodo where
  request : PeerReview
  assignmentTitle : String
  due : Option Instant

namespace PeerReviewTodo

def format : RecordFormat PeerReviewTodo PeerReviewTodo :=
  PeerReviewTodo.mk
    <$> .field "request" request .required
    <*> .field "assignment_title" assignmentTitle .required
    <*> .field "due_at" due .optional

instance : JsonFormat PeerReviewTodo := format.jsonFormat

instance : Listed PeerReviewTodo where
  time item := item.due.getD item.request.updated
  id item := item.request.id.global
  context item := .course item.request.course

end PeerReviewTodo

instance : Listed DiscussionTopic where
  time topic := topic.toDo.getD topic.updated
  id topic := topic.id.global
  context topic := topic.context

instance : Listed WikiPage where
  time page := page.toDo.getD page.updated
  id page := page.id.global
  context page := page.context

end Agenda
