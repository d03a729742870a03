import Agenda.Context
import Agenda.Learning.DueDate

/-!
What is there to look at: discussion topics, announcements among them, and wiki pages.
-/

namespace Agenda

inductive TopicState where
  | active
  | locked
  | postDelayed
  | unpublished
  | deleted
deriving DecidableEq, Repr

instance : Vocabulary TopicState where
  all := [.active, .locked, .postDelayed, .unpublished, .deleted]
  name
    | .active => "active"
    | .locked => "locked"
    | .postDelayed => "post_delayed"
    | .unpublished => "unpublished"
    | .deleted => "deleted"

structure DiscussionTopic where
  id : TopicId
  context : Context
  title : String
  state : TopicState
  isAnnouncement : Bool
  toDo : Option Instant
  lock : Option Instant
  audience : Option (List UserId)
  updated : Instant

namespace DiscussionTopic

def format : RecordFormat DiscussionTopic DiscussionTopic :=
  DiscussionTopic.mk
    <$> .field "id" id .required
    <*> .field "context" context .required
    <*> .field "title" title .required
    <*> .field "workflow_state" state .required
    <*> .field "is_announcement" isAnnouncement (.withDefault false)
    <*> .field "todo_date" toDo (.withDefault none)
    <*> .field "lock_at" lock (.withDefault none)
    <*> .field "visible_to" audience (.withDefault none)
    <*> .field "updated_at" updated .required

instance : JsonFormat DiscussionTopic := format.jsonFormat

def isPublished (topic : DiscussionTopic) : Bool :=
  topic.state = .active || topic.state = .locked

def isLockedAnnouncement (topic : DiscussionTopic) (now : Instant) : Bool :=
  topic.isAnnouncement && topic.lock.any fun lock => decide (lock ≤ now)

def isVisibleTo (topic : DiscussionTopic) (user : UserId) : Bool :=
  meantFor topic.audience user

end DiscussionTopic

inductive PageState where
  | active
  | unpublished
  | deleted
deriving DecidableEq, Repr

instance : Vocabulary PageState where
  all := [.active, .unpublished, .deleted]
  name
    | .active => "active"
    | .unpublished => "unpublished"
    | .deleted => "deleted"

structure WikiPage where
  id : PageId
  context : Context
  title : String
  state : PageState
  toDo : Option Instant
  audience : Option (List UserId)
  updated : Instant

namespace WikiPage

def format : RecordFormat WikiPage WikiPage :=
  WikiPage.mk
    <$> .field "id" id .required
    <*> .field "context" context .required
    <*> .field "title" title .required
    <*> .field "workflow_state" state .required
    <*> .field "todo_date" toDo (.withDefault none)
    <*> .field "visible_to" audience (.withDefault none)
    <*> .field "updated_at" updated .required

instance : JsonFormat WikiPage := format.jsonFormat

def isVisibleTo (page : WikiPage) (user : UserId) : Bool :=
  meantFor page.audience user

end WikiPage

end Agenda
