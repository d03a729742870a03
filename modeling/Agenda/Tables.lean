import Agenda.Learning.Course
import Agenda.Learning.Enrollment
import Agenda.Learning.Ignore
import Agenda.Learning.PeerReview
import Agenda.Learning.Quiz
import Agenda.Learning.Submission
import Agenda.Learning.Viewable

/-!
The tables that a deployment holds, and their rows by the name of a table.
-/

namespace Agenda

structure Tables where
  memberships : List UserMemberships := []
  courses : List Course := []
  groups : List Group := []
  assignments : List Assignment := []
  submissions : List Submission := []
  enrollments : List Enrollment := []
  provisionalGrades : List ProvisionalGrade := []
  overrides : List DueDateOverride := []
  quizzes : List Quiz := []
  quizAttempts : List QuizAttempt := []
  peerReviews : List PeerReview := []
  topics : List DiscussionTopic := []
  pages : List WikiPage := []
  ignores : List Ignore := []

inductive TableName where
  | memberships
  | courses
  | groups
  | assignments
  | submissions
  | enrollments
  | provisionalGrades
  | overrides
  | quizzes
  | quizAttempts
  | peerReviews
  | topics
  | pages
  | ignores
deriving DecidableEq, Repr

namespace TableName

instance : Vocabulary TableName where
  all := [.memberships, .courses, .groups, .assignments, .submissions, .enrollments,
    .provisionalGrades, .overrides, .quizzes, .quizAttempts, .peerReviews, .topics, .pages,
    .ignores]
  name
    | .memberships => "memberships"
    | .courses => "courses"
    | .groups => "groups"
    | .assignments => "assignments"
    | .submissions => "submissions"
    | .enrollments => "enrollments"
    | .provisionalGrades => "provisional_grades"
    | .overrides => "overrides"
    | .quizzes => "quizzes"
    | .quizAttempts => "quiz_submissions"
    | .peerReviews => "assessment_requests"
    | .topics => "discussion_topics"
    | .pages => "wiki_pages"
    | .ignores => "ignores"

def name (table : TableName) : String :=
  Vocabulary.name table

def Row : TableName → Type
  | .memberships => UserMemberships
  | .courses => Course
  | .groups => Group
  | .assignments => Assignment
  | .submissions => Submission
  | .enrollments => Enrollment
  | .provisionalGrades => ProvisionalGrade
  | .overrides => DueDateOverride
  | .quizzes => Quiz
  | .quizAttempts => QuizAttempt
  | .peerReviews => PeerReview
  | .topics => DiscussionTopic
  | .pages => WikiPage
  | .ignores => Ignore

instance : (table : TableName) → JsonFormat table.Row
  | .memberships => inferInstanceAs (JsonFormat UserMemberships)
  | .courses => inferInstanceAs (JsonFormat Course)
  | .groups => inferInstanceAs (JsonFormat Group)
  | .assignments => inferInstanceAs (JsonFormat Assignment)
  | .submissions => inferInstanceAs (JsonFormat Submission)
  | .enrollments => inferInstanceAs (JsonFormat Enrollment)
  | .provisionalGrades => inferInstanceAs (JsonFormat ProvisionalGrade)
  | .overrides => inferInstanceAs (JsonFormat DueDateOverride)
  | .quizzes => inferInstanceAs (JsonFormat Quiz)
  | .quizAttempts => inferInstanceAs (JsonFormat QuizAttempt)
  | .peerReviews => inferInstanceAs (JsonFormat PeerReview)
  | .topics => inferInstanceAs (JsonFormat DiscussionTopic)
  | .pages => inferInstanceAs (JsonFormat WikiPage)
  | .ignores => inferInstanceAs (JsonFormat Ignore)

end TableName

namespace Tables

def format : RecordFormat Tables Tables :=
  Tables.mk
    <$> .field "memberships" memberships (.withDefault [])
    <*> .field "courses" courses (.withDefault [])
    <*> .field "groups" groups (.withDefault [])
    <*> .field "assignments" assignments (.withDefault [])
    <*> .field "submissions" submissions (.withDefault [])
    <*> .field "enrollments" enrollments (.withDefault [])
    <*> .field "provisional_grades" provisionalGrades (.withDefault [])
    <*> .field "overrides" overrides (.withDefault [])
    <*> .field "quizzes" quizzes (.withDefault [])
    <*> .field "quiz_submissions" quizAttempts (.withDefault [])
    <*> .field "assessment_requests" peerReviews (.withDefault [])
    <*> .field "discussion_topics" topics (.withDefault [])
    <*> .field "wiki_pages" pages (.withDefault [])
    <*> .field "ignores" ignores (.withDefault [])

instance : JsonFormat Tables := format.jsonFormat

def rows (tables : Tables) : (table : TableName) → List table.Row
  | .memberships => tables.memberships
  | .courses => tables.courses
  | .groups => tables.groups
  | .assignments => tables.assignments
  | .submissions => tables.submissions
  | .enrollments => tables.enrollments
  | .provisionalGrades => tables.provisionalGrades
  | .overrides => tables.overrides
  | .quizzes => tables.quizzes
  | .quizAttempts => tables.quizAttempts
  | .peerReviews => tables.peerReviews
  | .topics => tables.topics
  | .pages => tables.pages
  | .ignores => tables.ignores

def replace (tables : Tables) : (table : TableName) → List table.Row → Tables
  | .memberships, rows => { tables with memberships := rows }
  | .courses, rows => { tables with courses := rows }
  | .groups, rows => { tables with groups := rows }
  | .assignments, rows => { tables with assignments := rows }
  | .submissions, rows => { tables with submissions := rows }
  | .enrollments, rows => { tables with enrollments := rows }
  | .provisionalGrades, rows => { tables with provisionalGrades := rows }
  | .overrides, rows => { tables with overrides := rows }
  | .quizzes, rows => { tables with quizzes := rows }
  | .quizAttempts, rows => { tables with quizAttempts := rows }
  | .peerReviews, rows => { tables with peerReviews := rows }
  | .topics, rows => { tables with topics := rows }
  | .pages, rows => { tables with pages := rows }
  | .ignores, rows => { tables with ignores := rows }

def insert (tables : Tables) (table : TableName) (row : table.Row) : Tables :=
  tables.replace table (tables.rows table ++ [row])

@[simp] theorem rows_replace (tables : Tables) (table : TableName) (rows : List table.Row) :
    (tables.replace table rows).rows table = rows := by
  cases table <;> rfl

end Tables

end Agenda
