import Agenda.Needs.Item

/-!
The dashboard of one user: four categories of entries, of which so many are shown and the rest is
only counted.
-/

namespace Agenda

inductive TodoCategory where
  | grading
  | moderation
  | submitting
  | reviewing
deriving DecidableEq, Repr

namespace TodoCategory

instance : Vocabulary TodoCategory where
  all := [.grading, .moderation, .submitting, .reviewing]
  name
    | .grading => "grading"
    | .moderation => "moderation"
    | .submitting => "submitting"
    | .reviewing => "reviewing"

def all : List TodoCategory :=
  Vocabulary.all

def purpose : TodoCategory → Purpose
  | .grading => .grading
  | .moderation => .moderation
  | .submitting => .submitting
  | .reviewing => .reviewing

end TodoCategory

structure TodoEntry where
  kind : ObjectKind
  purpose : Purpose
  id : GlobalId
  title : String
  context : Context
  contextName : String
  due : Option Instant
  needsGradingCount : Option Nat

namespace TodoEntry

def format : RecordFormat TodoEntry TodoEntry :=
  TodoEntry.mk
    <$> .field "kind" kind .required
    <*> .field "purpose" purpose .required
    <*> .field "id" id .required
    <*> .field "title" title .required
    <*> .field "context" context .required
    <*> .field "contextName" contextName .required
    <*> .field "dueAt" due .optional
    <*> .fieldIfAny "needsGradingCount" needsGradingCount (.withDefault none)

instance : JsonFormat TodoEntry := format.jsonFormat

def ofAssignment (purpose : Purpose) (nameOf : Context → String) (item : AssignmentTodo) :
    TodoEntry where
  kind := if item.assignment.isSubAssignment then .subAssignment else .assignment
  purpose := purpose
  id := item.assignment.id.global
  title := item.assignment.title
  context := .course item.assignment.course
  contextName := nameOf (.course item.assignment.course)
  due := item.due
  needsGradingCount := item.needsGradingCount

def ofReview (nameOf : Context → String) (item : PeerReviewTodo) : TodoEntry where
  kind := .assessmentRequest
  purpose := .reviewing
  id := item.request.id.global
  title := item.assignmentTitle
  context := .course item.request.course
  contextName := nameOf (.course item.request.course)
  due := item.due
  needsGradingCount := none

end TodoEntry

structure TodoList where
  entries : TodoCategory → List TodoEntry
  visibleLimit : Nat

namespace TodoList

def empty (visibleLimit : Nat) : TodoList where
  entries _ := []
  visibleLimit := visibleLimit

def visible (list : TodoList) (category : TodoCategory) : List TodoEntry :=
  (list.entries category).take list.visibleLimit

def hiddenCount (list : TodoList) (category : TodoCategory) : Nat :=
  (list.entries category).length - list.visibleLimit

def totalHiddenCount (list : TodoList) : Nat :=
  TodoCategory.all.foldl (fun total category => total + list.hiddenCount category) 0

def allEntries (list : TodoList) : List TodoEntry :=
  TodoCategory.all.flatMap list.entries

def anyItems (list : TodoList) : Bool :=
  !list.allEntries.isEmpty

/-- Entries come from more than one context, so each should name its own. -/
def showContext (list : TodoList) : Bool :=
  1 < (sortedDistinct (list.allEntries.map (·.context))).length

def categorySnapshot (list : TodoList) (category : TodoCategory) : Json :=
  .object [
    ("category", JsonFormat.encode category),
    ("visible", JsonFormat.encode (list.visible category)),
    ("hiddenCount", Json.natural (list.hiddenCount category))]

def snapshot (list : TodoList) : Json :=
  .object [
    ("categories", .array (TodoCategory.all.map list.categorySnapshot)),
    ("totalHiddenCount", Json.natural list.totalHiddenCount),
    ("anyItems", .boolean list.anyItems),
    ("showContext", .boolean list.showContext)]

end TodoList

end Agenda
