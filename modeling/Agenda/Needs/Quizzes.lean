import Agenda.Needs.Gather

/-!
Practice quizzes and surveys that a student can take.
-/

namespace Agenda

structure Quizzes where
  choice : QuizOptions
  user : UserId
  options : NeedsOptions

namespace Quizzes

def isCandidate (query : Quizzes) (ignored : List GlobalId) (row : Quiz) : Bool :=
  row.state = .available && row.type.isUngraded && row.isVisibleTo query.user &&
    !ignored.contains row.id.global

/-- The quizzes among the candidates that the user has completed; they are looked up only if the
query leaves them out. -/
def completed (query : Quizzes) (deployment : Deployment) (shard : ShardId)
    (candidates : List Quiz) : Metered (List QuizId) :=
  if query.choice.needingSubmissionOnly then do
    let attempts ← deployment.readQuizAttempts shard query.user (candidates.map (·.id))
    return (attempts.filter (·.completed)).map (·.quiz)
  else return []

def item? (query : Quizzes) (now : Instant) (overrides : List DueDateOverride)
    (completed : List QuizId) (row : Quiz) : Option QuizTodo :=
  let dates := (DueDateOverride.datesOf? overrides (.quiz row.id)).getD row.dates
  if !completed.contains row.id && !dates.isLocked now && query.options.withinWindow dates.due then
    some ⟨row, dates.due⟩
  else none

def onShard (query : Quizzes) (deployment : Deployment) (ignored : List GlobalId)
    (shard : ShardId) (courses : List CourseId) : Metered (List QuizTodo) := do
  let rows ← deployment.readQuizzes shard courses
  let candidates := rows.filter (query.isCandidate ignored)
  if candidates.isEmpty then return []
  else
    let overrides ← deployment.readOverrides shard query.user
      (candidates.map fun row => .quiz row.id)
    let completed ← query.completed deployment shard candidates
    return candidates.filterMap (query.item? deployment.now overrides completed)

def list (query : Quizzes) (deployment : Deployment) (scope : Scope) :
    Metered (List QuizTodo) := do
  let ignored ← ignoredIds deployment query.user .quiz .submitting query.options
  gather scope.courses (query.onShard deployment ignored)

end Quizzes

end Agenda
