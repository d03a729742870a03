import Agenda.Needs.Gather

/-!
Discussion topics and wiki pages that a user should look at before a date.
-/

namespace Agenda

structure Viewing where
  user : UserId
  options : NeedsOptions

namespace Viewing

def isDue (query : Viewing) (toDo : Option Instant) : Bool :=
  toDo.isSome && query.options.withinWindow toDo

def listsTopic (query : Viewing) (now : Instant) (ignored : List GlobalId)
    (topic : DiscussionTopic) : Bool :=
  topic.isPublished && topic.isVisibleTo query.user && query.isDue topic.toDo &&
    !topic.isLockedAnnouncement now && !ignored.contains topic.id.global

def listsPage (query : Viewing) (ignored : List GlobalId) (page : WikiPage) : Bool :=
  page.state = .active && page.isVisibleTo query.user && query.isDue page.toDo &&
    !ignored.contains page.id.global

def topics (query : Viewing) (deployment : Deployment) (scope : Scope) :
    Metered (List DiscussionTopic) := do
  let ignored ← ignoredIds deployment query.user .discussionTopic .viewing query.options
  gather scope.byShard fun shard contexts => do
    let rows ← deployment.readTopics shard contexts
    return rows.filter (query.listsTopic deployment.now ignored)

def pages (query : Viewing) (deployment : Deployment) (scope : Scope) :
    Metered (List WikiPage) := do
  let ignored ← ignoredIds deployment query.user .wikiPage .viewing query.options
  gather scope.byShard fun shard contexts => do
    let rows ← deployment.readPages shard contexts
    return rows.filter (query.listsPage ignored)

end Viewing

end Agenda
