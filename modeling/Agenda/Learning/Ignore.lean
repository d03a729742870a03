import Agenda.Id
import Agenda.Json.Record
import Agenda.Purpose

/-!
Ignores: a user takes a learning object off the to-do list of one purpose. An ignore that is not
permanent lasts until the object changes.
-/

namespace Agenda

structure Asset where
  kind : ObjectKind
  id : GlobalId
deriving DecidableEq, Repr

namespace Asset

def format : RecordFormat Asset Asset :=
  Asset.mk
    <$> .field "kind" kind .required
    <*> .field "id" id .required

instance : JsonFormat Asset := format.jsonFormat

end Asset

structure Ignore where
  user : UserId
  asset : Asset
  purpose : Purpose
  permanent : Bool
deriving DecidableEq, Repr

namespace Ignore

def format : RecordFormat Ignore Ignore :=
  Ignore.mk
    <$> .field "user_id" user .required
    <*> .field "asset" asset .required
    <*> .field "purpose" purpose .required
    <*> .field "permanent" permanent (.withDefault false)

instance : JsonFormat Ignore := format.jsonFormat

/-- Two ignores that stand for the same: same user, asset and purpose. -/
def sameIdentity (left right : Ignore) : Bool :=
  left.user = right.user && left.asset = right.asset && left.purpose = right.purpose

/-- Writes an ignore over the first one of the same identity, or after all others. -/
def upsert (row : Ignore) : List Ignore → List Ignore
  | [] => [row]
  | first :: rest =>
      if first.sameIdentity row then { first with permanent := row.permanent } :: rest
      else first :: upsert row rest

def isTransient (asset : Asset) (purpose : Purpose) (row : Ignore) : Bool :=
  row.asset = asset && row.purpose = purpose && !row.permanent

def transientUsers (asset : Asset) (purpose : Purpose) (rows : List Ignore) : List UserId :=
  sortedDistinct ((rows.filter (isTransient asset purpose)).map (·.user))

def lasting (asset : Asset) (purpose : Purpose) (rows : List Ignore) : List Ignore :=
  rows.filter fun row => !isTransient asset purpose row

end Ignore

end Agenda
