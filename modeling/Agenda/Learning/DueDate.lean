import Agenda.Json.Record
import Agenda.Json.Tagged
import Agenda.Shard
import Agenda.Time.Rfc3339

/-!
Dates of an assignment or quiz, and the dates that override them for one student.
-/

namespace Agenda

structure EffectiveDates where
  due : Option Instant
  unlock : Option Instant
  lock : Option Instant

namespace EffectiveDates

def none : EffectiveDates :=
  ⟨.none, .none, .none⟩

def format : RecordFormat EffectiveDates EffectiveDates :=
  EffectiveDates.mk
    <$> .field "due_at" due .optional
    <*> .field "unlock_at" unlock .optional
    <*> .field "lock_at" lock .optional

instance : JsonFormat EffectiveDates := format.jsonFormat

/-- Not yet open, or closed. The lock date itself is closed, the unlock date open. -/
def isLocked (dates : EffectiveDates) (now : Instant) : Bool :=
  dates.unlock.any (fun unlock => decide (now < unlock)) ||
    dates.lock.any (fun lock => decide (lock ≤ now))

end EffectiveDates

inductive OverrideTarget where
  | assignment (id : AssignmentId)
  | quiz (id : QuizId)
deriving DecidableEq, Repr

inductive OverrideType where
  | assignment
  | quiz
deriving DecidableEq, Repr

instance : Vocabulary OverrideType where
  all := [.assignment, .quiz]
  name
    | .assignment => "assignment"
    | .quiz => "quiz"

namespace OverrideTarget

def shard : OverrideTarget → ShardId
  | .assignment id => id.shard
  | .quiz id => id.shard

def format : TaggedFormat OverrideType OverrideTarget where
  tagName := "type"
  contentName := "id"
  write
    | .assignment id => (.assignment, JsonFormat.encode id)
    | .quiz id => (.quiz, JsonFormat.encode id)
  content
    | .assignment, document => (JsonFormat.decode document).map .assignment
    | .quiz, document => (JsonFormat.decode document).map .quiz

instance : JsonFormat OverrideTarget := format.jsonFormat

end OverrideTarget

structure DueDateOverride where
  target : OverrideTarget
  user : UserId
  dates : EffectiveDates

namespace DueDateOverride

def format : RecordFormat DueDateOverride DueDateOverride :=
  DueDateOverride.mk
    <$> .field "target" target .required
    <*> .field "user_id" user .required
    <*> .field "dates" dates .required

instance : JsonFormat DueDateOverride := format.jsonFormat

/-- The dates of the last override of a target, if it has any. -/
def datesOf? (overrides : List DueDateOverride) (target : OverrideTarget) :
    Option EffectiveDates :=
  (overrides.reverse.find? fun row => row.target = target).map (·.dates)

end DueDateOverride

def meantFor (audience : Option (List UserId)) (user : UserId) : Bool :=
  audience.all fun users => users.contains user

end Agenda
