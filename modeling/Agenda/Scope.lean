import Agenda.Deployment
import Agenda.Shard.Partition

/-!
Scopes: the courses and groups that a query of a user covers. A scope starts from the memberships
of the user and keeps what passes the explicit filters of the request.
-/

namespace Agenda

inductive ScopePermission where
  | participate
  | instruct
  | grant (permission : Permission)
deriving DecidableEq, Repr

structure ScopeRequest where
  permission : ScopePermission
  courses : Option (List CourseId) := none
  groups : Option (List GroupId) := none
  contexts : Option (List Context) := none
  includeConcluded : Bool := false

structure Scope where
  courses : ShardPartition CourseId
  groups : ShardPartition GroupId
deriving DecidableEq

def intersectFilters {α : Type} [BEq α] : Option (List α) → Option (List α) → Option (List α)
  | none, filter => filter
  | some ids, none => some ids
  | some ids, some others => some (ids.filter others.contains)

namespace ScopeRequest

def courseFilter (request : ScopeRequest) : Option (List CourseId) :=
  intersectFilters request.courses
    (request.contexts.map fun contexts => contexts.filterMap Context.course?)

def groupFilter (request : ScopeRequest) : Option (List GroupId) :=
  intersectFilters request.groups
    (request.contexts.map fun contexts => contexts.filterMap Context.group?)

end ScopeRequest

namespace Scope

def isEmpty (scope : Scope) : Bool :=
  scope.courses.isEmpty && scope.groups.isEmpty

def contexts (scope : Scope) : List Context :=
  scope.courses.toList.map .course ++ scope.groups.toList.map .group

def byShard (scope : Scope) : ShardPartition Context :=
  .ofList scope.contexts

def grantedCourses (deployment : Deployment) (user : UserId) (candidates : List CourseId)
    (permission : Permission) : Metered (List CourseId) :=
  if candidates.isEmpty then return []
  else do
    let matrix ← deployment.checkMany user (candidates.map .course) [permission]
    return candidates.filter fun id => matrix.allows (.course id) permission

def defaultCourses (deployment : Deployment) (user : UserId) (request : ScopeRequest) :
    Metered (List CourseId) := do
  let memberships ← deployment.listCourses user
  if request.includeConcluded then return memberships.map (·.course)
  else
    let current := memberships.filter Membership.isCurrent
    match request.permission with
    | .participate => return (current.filter fun row => row.role.isStudent).map (·.course)
    | .instruct => return (current.filter fun row => row.role.isInstructor).map (·.course)
    | .grant permission =>
        grantedCourses deployment user (current.map (·.course)) permission

/-- One side of a scope. A filter that lets nothing pass makes it empty without asking. -/
def side {α : Type} [DecidableEq α] [Ranked α] [Sharded α] (filter : Option (List α))
    (defaults : Metered (List α)) : Metered (ShardPartition α) :=
  if filter = some [] then return .empty
  else do
    let ids ← defaults
    return .ofList (ids.filter fun id => filter.all fun wanted => wanted.contains id)

def resolve (deployment : Deployment) (user : UserId) (request : ScopeRequest) :
    Metered Scope := do
  let courses ← side request.courseFilter (defaultCourses deployment user request)
  let groups ← side request.groupFilter (deployment.listGroups user)
  return ⟨courses, groups⟩

end Scope

end Agenda
