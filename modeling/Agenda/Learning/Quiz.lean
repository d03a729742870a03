import Agenda.Learning.DueDate

/-!
Quizzes and the attempts at them.
-/

namespace Agenda

inductive QuizState where
  | unpublished
  | available
  | deleted
deriving DecidableEq, Repr

instance : Vocabulary QuizState where
  all := [.unpublished, .available, .deleted]
  name
    | .unpublished => "unpublished"
    | .available => "available"
    | .deleted => "deleted"

inductive QuizType where
  | assignment
  | practice
  | survey
  | gradedSurvey
deriving DecidableEq, Repr

namespace QuizType

instance : Vocabulary QuizType where
  all := [.assignment, .practice, .survey, .gradedSurvey]
  name
    | .assignment => "assignment"
    | .practice => "practice"
    | .survey => "survey"
    | .gradedSurvey => "graded_survey"

def isUngraded : QuizType → Bool
  | .practice | .survey => true
  | .assignment | .gradedSurvey => false

end QuizType

structure Quiz where
  id : QuizId
  course : CourseId
  title : String
  state : QuizState
  type : QuizType
  dates : EffectiveDates
  updated : Instant
  audience : Option (List UserId)

namespace Quiz

def format : RecordFormat Quiz Quiz :=
  Quiz.mk
    <$> .field "id" id .required
    <*> .field "course_id" course .required
    <*> .field "title" title .required
    <*> .field "workflow_state" state .required
    <*> .field "quiz_type" type .required
    <*> .field "dates" dates (.withDefault .none)
    <*> .field "updated_at" updated .required
    <*> .field "visible_to" audience (.withDefault none)

instance : JsonFormat Quiz := format.jsonFormat

def isVisibleTo (quiz : Quiz) (user : UserId) : Bool :=
  meantFor quiz.audience user

end Quiz

structure QuizAttempt where
  quiz : QuizId
  user : UserId
  completed : Bool
deriving DecidableEq, Repr

namespace QuizAttempt

def format : RecordFormat QuizAttempt QuizAttempt :=
  QuizAttempt.mk
    <$> .field "quiz_id" quiz .required
    <*> .field "user_id" user .required
    <*> .field "completed" completed .required

instance : JsonFormat QuizAttempt := format.jsonFormat

end QuizAttempt

end Agenda
