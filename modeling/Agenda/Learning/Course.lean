import Agenda.Context
import Agenda.Json.Record

/-!
Courses and groups.
-/

namespace Agenda

inductive CourseState where
  | created
  | claimed
  | available
  | completed
  | deleted
deriving DecidableEq, Repr

instance : Vocabulary CourseState where
  all := [.created, .claimed, .available, .completed, .deleted]
  name
    | .created => "created"
    | .claimed => "claimed"
    | .available => "available"
    | .completed => "completed"
    | .deleted => "deleted"

structure Course where
  id : CourseId
  account : AccountId
  name : String
  state : CourseState
  /-- The account lists discussion assignments by their checkpoints. -/
  checkpoints : Bool
deriving DecidableEq, Repr

namespace Course

def format : RecordFormat Course Course :=
  Course.mk
    <$> .field "id" id .required
    <*> .field "account_id" account .required
    <*> .field "name" name .required
    <*> .field "workflow_state" state .required
    <*> .field "discussion_checkpoints" checkpoints (.withDefault false)

instance : JsonFormat Course := format.jsonFormat

end Course

structure Group where
  id : GroupId
  name : String
  course : Option CourseId
deriving DecidableEq, Repr

namespace Group

def format : RecordFormat Group Group :=
  Group.mk
    <$> .field "id" id .required
    <*> .field "name" name .required
    <*> .field "course_id" course (.withDefault none)

instance : JsonFormat Group := format.jsonFormat

end Group

structure ContextSummary where
  context : Context
  name : String
deriving DecidableEq, Repr

namespace ContextSummary

def format : RecordFormat ContextSummary ContextSummary :=
  ContextSummary.mk
    <$> .field "context" context .required
    <*> .field "name" name .required

instance : JsonFormat ContextSummary := format.jsonFormat

end ContextSummary

end Agenda
