import Agenda.Scope

/-!
Options of the needs-queries: how many items, which due dates, which contexts, and what else to
keep.
-/

namespace Agenda

structure NeedsOptions where
  limit : Option Nat := some 15
  dueAfter : Option Instant := none
  dueBefore : Option Instant := none
  includeIgnored : Bool := false
  includeConcluded : Bool := false
  courses : Option (List CourseId) := none
  groups : Option (List GroupId) := none
  contexts : Option (List Context) := none

namespace NeedsOptions

def format : RecordFormat NeedsOptions NeedsOptions :=
  NeedsOptions.mk
    <$> .field "limit" limit .optional
    <*> .field "due_after" dueAfter .optional
    <*> .field "due_before" dueBefore .optional
    <*> .field "include_ignored" includeIgnored .required
    <*> .field "include_concluded" includeConcluded .required
    <*> .field "course_ids" courses .optional
    <*> .field "group_ids" groups .optional
    <*> .field "contexts" contexts .optional

instance : JsonFormat NeedsOptions := format.jsonFormat

def default : NeedsOptions :=
  {}

def scopeRequest (options : NeedsOptions) (permission : ScopePermission) : ScopeRequest where
  permission := permission
  courses := options.courses
  groups := options.groups
  contexts := options.contexts
  includeConcluded := options.includeConcluded

/-- Whether a due date is in the window. Without a bound everything is; with one, what has no due
date is not. -/
def withinWindow (options : NeedsOptions) (due : Option Instant) : Bool :=
  (options.dueAfter.isNone && options.dueBefore.isNone) ||
    due.any fun due =>
      options.dueAfter.all (fun after => decide (after ≤ due)) &&
        options.dueBefore.all (fun before => decide (due ≤ before))

def truncate {ι : Type} (options : NeedsOptions) (items : List ι) : List ι :=
  match options.limit with
  | none => items
  | some limit => items.take limit

def admitted (options : NeedsOptions) (count : Nat) : Nat :=
  match options.limit with
  | none => count
  | some limit => min limit count

@[simp] theorem length_truncate {ι : Type} (options : NeedsOptions) (items : List ι) :
    (options.truncate items).length = options.admitted items.length := by
  cases bound : options.limit <;> simp [truncate, admitted, bound]

end NeedsOptions

structure SubmittingOptions where
  includeUngraded : Bool := false
  includeLocked : Bool := false
deriving DecidableEq, Repr

namespace SubmittingOptions

def format : RecordFormat SubmittingOptions SubmittingOptions :=
  SubmittingOptions.mk
    <$> .field "include_ungraded" includeUngraded .required
    <*> .field "include_locked" includeLocked .required

instance : JsonFormat SubmittingOptions := format.jsonFormat

end SubmittingOptions

structure QuizOptions where
  needingSubmissionOnly : Bool := false
deriving DecidableEq, Repr

namespace QuizOptions

def format : RecordFormat QuizOptions QuizOptions :=
  QuizOptions.mk
    <$> .field "needing_submission_only" needingSubmissionOnly .required

instance : JsonFormat QuizOptions := format.jsonFormat

end QuizOptions

end Agenda
