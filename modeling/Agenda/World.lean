import Agenda.Dashboard.Build

/-!
A world: a deployment whose tables, clock and outages change, with the cache that its queries share.
-/

namespace Agenda

structure World where
  deployment : Deployment
  memory : Memory

namespace World

def start (tables : Tables) (grants : List PermissionGrant) (now : Instant) (config : Config) :
    World where
  deployment := {
    tables := tables
    grants := grants
    offline := []
    outages := []
    now := now
    config := config }
  memory := .empty

def Action (α : Type) : Type :=
  World → Except Stop α × World

namespace Action

variable {α β : Type}

def pure (value : α) : Action α :=
  fun world => (.ok value, world)

def bind (first : Action α) (next : α → Action β) : Action β :=
  fun world =>
    match first world with
    | (.error stop, after) => (.error stop, after)
    | (.ok value, after) => next value after

instance : Monad Action where
  pure := pure
  bind := bind

def ofSession (session : Deployment → Session α) : Action α :=
  fun world =>
    let (outcome, memory) := session world.deployment world.memory
    (outcome, { world with memory := memory })

def ofMetered (computation : Deployment → Metered α) : Action α :=
  ofSession fun deployment => .ofMetered (computation deployment)

def change (edit : Deployment → Deployment) : Action Unit :=
  fun world => (.ok (), { world with deployment := edit world.deployment })

def editIgnores (facility : Facility) (edit : List Ignore → α × List Ignore) : Action α :=
  fun world =>
    match world.deployment.failure? facility with
    | some failure => (.error (.failed failure.toError), world)
    | none =>
        let (answer, rows) := edit world.deployment.tables.ignores
        let tables := { world.deployment.tables with ignores := rows }
        (.ok answer, { world with deployment := { world.deployment with tables := tables } })

end Action

def touch (user : UserId) : Action BatchToken :=
  .ofSession fun deployment => .touch deployment user

def touchAll : List UserId → Action Unit
  | [] => return ()
  | user :: rest => do
      let _ ← touch user
      touchAll rest

def ignore (row : Ignore) : Action Ignore := do
  .editIgnores .saveIgnore fun rows => ((), row.upsert rows)
  let _ ← touch row.user
  return row

/-- Ends the ignores of an asset that are not permanent, because it has changed. The users whose
ignores ended are answered. -/
def clearOnChange (asset : Asset) (purpose : Purpose) : Action (List UserId) := do
  let users ← .editIgnores .clearIgnores fun rows =>
    (Ignore.transientUsers asset purpose rows, Ignore.lasting asset purpose rows)
  touchAll users
  return users

def advance (span : Duration) : Action Unit :=
  fun world =>
    let later :=
      if Cache.longestLifetime < span then none
      else world.deployment.now.add? span
    match later with
    | none => (.error .timeOverflow, world)
    | some now => (.ok (), { world with deployment := { world.deployment with now := now } })

end World

end Agenda
