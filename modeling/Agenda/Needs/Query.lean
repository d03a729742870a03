import Agenda.Cache.ReadThrough
import Agenda.Needs.Grading
import Agenda.Needs.Moderation
import Agenda.Needs.Quizzes
import Agenda.Needs.Reviews
import Agenda.Needs.Submitting
import Agenda.Needs.Viewing

/-!
The seven needs-queries, each in two forms: the whole list of a scope, computed when asked for, and
the first items up to the limit, read through the cache.
-/

namespace Agenda

inductive NeedsQuery where
  | submitting (kind : AssignmentKind) (choice : SubmittingOptions)
  | grading (kind : AssignmentKind)
  | moderation
  | quizzes (choice : QuizOptions)
  | reviews
  | topics
  | pages
deriving DecidableEq, Repr

namespace NeedsQuery

def Item : NeedsQuery → Type
  | .submitting _ _ => AssignmentTodo
  | .grading _ => AssignmentTodo
  | .moderation => AssignmentTodo
  | .quizzes _ => QuizTodo
  | .reviews => PeerReviewTodo
  | .topics => DiscussionTopic
  | .pages => WikiPage

instance : (query : NeedsQuery) → JsonFormat query.Item
  | .submitting _ _ => inferInstanceAs (JsonFormat AssignmentTodo)
  | .grading _ => inferInstanceAs (JsonFormat AssignmentTodo)
  | .moderation => inferInstanceAs (JsonFormat AssignmentTodo)
  | .quizzes _ => inferInstanceAs (JsonFormat QuizTodo)
  | .reviews => inferInstanceAs (JsonFormat PeerReviewTodo)
  | .topics => inferInstanceAs (JsonFormat DiscussionTopic)
  | .pages => inferInstanceAs (JsonFormat WikiPage)

instance : (query : NeedsQuery) → Listed query.Item
  | .submitting _ _ => inferInstanceAs (Listed AssignmentTodo)
  | .grading _ => inferInstanceAs (Listed AssignmentTodo)
  | .moderation => inferInstanceAs (Listed AssignmentTodo)
  | .quizzes _ => inferInstanceAs (Listed QuizTodo)
  | .reviews => inferInstanceAs (Listed PeerReviewTodo)
  | .topics => inferInstanceAs (Listed DiscussionTopic)
  | .pages => inferInstanceAs (Listed WikiPage)

def permission : NeedsQuery → ScopePermission
  | .submitting _ _ => .participate
  | .grading _ => .grant .manageGrades
  | .moderation => .instruct
  | .quizzes _ => .participate
  | .reviews => .participate
  | .topics => .participate
  | .pages => .participate

def objectKind : NeedsQuery → ObjectKind
  | .submitting kind _ => kind.objectKind
  | .grading kind => kind.objectKind
  | .moderation => .assignment
  | .quizzes _ => .quiz
  | .reviews => .assessmentRequest
  | .topics => .discussionTopic
  | .pages => .wikiPage

def purpose : NeedsQuery → Purpose
  | .submitting _ _ => .submitting
  | .grading _ => .grading
  | .moderation => .moderation
  | .quizzes _ => .submitting
  | .reviews => .reviewing
  | .topics => .viewing
  | .pages => .viewing

def params (query : NeedsQuery) (options : NeedsOptions) : Json :=
  let shared := ("options", JsonFormat.encode options)
  match query with
  | .submitting _ choice => .object [shared, ("submitting", JsonFormat.encode choice)]
  | .quizzes choice => .object [shared, ("quiz", JsonFormat.encode choice)]
  | _ => .object [shared]

def isDisabled (query : NeedsQuery) (config : Config) : Bool :=
  match query with
  | .grading _ => config.gradingDisabled
  | _ => false

def isOutside (query : NeedsQuery) (scope : Scope) : Bool :=
  match query with
  | .topics => scope.isEmpty
  | .pages => scope.isEmpty
  | _ => scope.courses.isEmpty

def scope (query : NeedsQuery) (deployment : Deployment) (user : UserId)
    (options : NeedsOptions) : Metered Scope :=
  Scope.resolve deployment user (options.scopeRequest query.permission)

def list (deployment : Deployment) (user : UserId) (options : NeedsOptions) (scope : Scope) :
    (query : NeedsQuery) → Metered (List query.Item)
  | .submitting kind choice => Submitting.list ⟨kind, choice, user, options⟩ deployment scope
  | .grading kind => Grading.list ⟨kind, user, options⟩ deployment scope
  | .moderation => Moderation.list ⟨user, options⟩ deployment scope none
  | .quizzes choice => Quizzes.list ⟨choice, user, options⟩ deployment scope
  | .reviews => Reviews.list ⟨user, options⟩ deployment scope false
  | .topics => Viewing.topics ⟨user, options⟩ deployment scope
  | .pages => Viewing.pages ⟨user, options⟩ deployment scope

/-- The first items of a scope, up to the limit. Finished reviews are left out, and moderation
checks no permission beyond the limit. -/
def firstItems (deployment : Deployment) (user : UserId) (options : NeedsOptions)
    (scope : Scope) (query : NeedsQuery) : Metered (List query.Item) :=
  match query with
  | .moderation => Moderation.list ⟨user, options⟩ deployment scope options.limit
  | .reviews => do
      let items ← Reviews.list ⟨user, options⟩ deployment scope true
      return options.truncate items
  | other => do
      let items ← other.list deployment user options scope
      return options.truncate items

def run (query : NeedsQuery) (deployment : Deployment) (user : UserId) (options : NeedsOptions) :
    Metered (List query.Item) :=
  if query.isDisabled deployment.config then return []
  else do
    let scope ← query.scope deployment user options
    query.list deployment user options scope

def cacheRequest (query : NeedsQuery) (config : Config) (user : UserId) (options : NeedsOptions)
    (scope : Scope) : CacheRequest where
  user := user
  kind := query.objectKind
  purpose := query.purpose
  contexts := scope.contexts
  params := query.params options
  lifetime := .ofSeconds config.cacheSeconds

def runCached (query : NeedsQuery) (deployment : Deployment) (user : UserId)
    (options : NeedsOptions) : Session (List query.Item) :=
  if query.isDisabled deployment.config then return []
  else do
    let scope ← Session.ofMetered (query.scope deployment user options)
    if query.isOutside scope then return []
    else
      (query.cacheRequest deployment.config user options scope).fetch deployment
        (query.firstItems deployment user options scope)

end NeedsQuery

def keepAll {ι : Type} (predicates : List (ι → Bool)) (items : List ι) : List ι :=
  predicates.foldl (fun kept predicate => kept.filter predicate) items

end Agenda
