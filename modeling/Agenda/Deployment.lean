import Agenda.Metered
import Agenda.Permission
import Agenda.Tables

/-!
A deployment as queries see it: the tables of all shards, the grants, what is out of order, the
time and the configuration.
-/

namespace Agenda

inductive Facility where
  | readEntry
  | writeEntry
  | readToken
  | advanceToken
  | listCourses
  | listGroups
  | saveIgnore
  | clearIgnores
  | checkOne
  | checkMany
deriving DecidableEq, Repr

structure Config where
  gradingDisabled : Bool := false
  cacheSeconds : Nat := 7200
deriving DecidableEq, Repr

structure Deployment where
  tables : Tables
  grants : List PermissionGrant
  offline : List ShardId
  /-- What is out of order and how it fails; the first entry of a facility counts. -/
  outages : List (Facility × ServiceFailure)
  now : Instant
  config : Config

namespace Deployment

def failure? (deployment : Deployment) (facility : Facility) : Option ServiceFailure :=
  deployment.outages.lookup facility

def use {α : Type} (deployment : Deployment) (facility : Facility) (effort : Effort) (answer : α) :
    Metered α :=
  match deployment.failure? facility with
  | some failure => .fail failure.toError
  | none => .spend effort (.ok answer)

def memberships (deployment : Deployment) (user : UserId) : List Membership :=
  (deployment.tables.memberships.filter fun row => row.user = user).flatMap (·.courses)

def groups (deployment : Deployment) (user : UserId) : List GroupId :=
  (deployment.tables.memberships.filter fun row => row.user = user).flatMap (·.groups)

def allows (deployment : Deployment) (user : UserId) (context : Context)
    (permission : Permission) : Bool :=
  deployment.grants.contains ⟨user, context, permission⟩

def listCourses (deployment : Deployment) (user : UserId) : Metered (List Membership) :=
  deployment.use .listCourses .zero (deployment.memberships user)

def listGroups (deployment : Deployment) (user : UserId) : Metered (List GroupId) :=
  deployment.use .listGroups .zero (deployment.groups user)

def checkOne (deployment : Deployment) (user : UserId) (context : Context)
    (permission : Permission) : Metered Bool :=
  deployment.use .checkOne { singleChecks := 1 } (deployment.allows user context permission)

def checkMany (deployment : Deployment) (user : UserId) (contexts : List Context)
    (permissions : List Permission) : Metered PermissionMatrix :=
  let pairs := contexts.flatMap fun context => permissions.map fun permission =>
    (context, permission)
  deployment.use .checkMany { bulkChecks := 1 }
    ⟨pairs.filter fun pair => deployment.allows user pair.1 pair.2⟩

end Deployment

end Agenda
