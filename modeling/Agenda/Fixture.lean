import Agenda.Deployment

/-!
Fixtures: a JSON object that holds the tables of a deployment and its grants side by side.
-/

namespace Agenda

structure Fixture where
  tables : Tables
  grants : List PermissionGrant

namespace Fixture

/-- The grants among the members of an object, and the members beside them. The grants take their
shape where they stand; anything else must be a value and is kept for later. -/
def split : List (Reading String × Document) →
    Except Fault (Option (List PermissionGrant) × List (Reading String × Document))
  | [] => .ok (none, [])
  | (name, value) :: rest => do
      let text ← name.use
      if text = "grants" then
        let grants ← JsonFormat.decode value
        let (others, members) ← split rest
        if others.isSome then .error .misshapen else .ok (some grants, members)
      else
        let _ ← value.value
        let (grants, members) ← split rest
        .ok (grants, (name, value.kept) :: members)

def decode : Document → Except Fault Fixture
  | .object members fault => do
      let (grants, others) ← split members
      let _ ← Document.orFault () fault
      let tables ← Tables.format.decodeObject (.object others none)
      .ok ⟨tables, grants.getD []⟩
  | .unnamed => .error .malformed
  | .deep _ => .error .malformed
  | other => .error other.mismatch

def ofText (text : String) : Except Fault Fixture :=
  Document.read decode text

end Fixture

end Agenda
