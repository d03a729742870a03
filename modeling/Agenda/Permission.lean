import Agenda.Context
import Agenda.Json.Record

/-!
Permissions on contexts: grants to users, and the matrix of granted permissions that one bulk
check answers with.
-/

namespace Agenda

inductive Permission where
  | manageGrades
  | viewAllGrades
  | selectFinalGrade
deriving DecidableEq, Repr

instance : Vocabulary Permission where
  all := [.manageGrades, .viewAllGrades, .selectFinalGrade]
  name
    | .manageGrades => "manage_grades"
    | .viewAllGrades => "view_all_grades"
    | .selectFinalGrade => "select_final_grade"

structure PermissionGrant where
  user : UserId
  context : Context
  permission : Permission
deriving DecidableEq, Repr

namespace PermissionGrant

def format : RecordFormat PermissionGrant PermissionGrant :=
  PermissionGrant.mk
    <$> .field "user_id" user .required
    <*> .field "context" context .required
    <*> .field "permission" permission .required

instance : JsonFormat PermissionGrant := format.jsonFormat

end PermissionGrant

structure PermissionMatrix where
  granted : List (Context × Permission)

namespace PermissionMatrix

def empty : PermissionMatrix :=
  ⟨[]⟩

def allows (matrix : PermissionMatrix) (context : Context) (permission : Permission) : Bool :=
  matrix.granted.contains (context, permission)

def allowsAny (matrix : PermissionMatrix) (context : Context) (permissions : List Permission) :
    Bool :=
  permissions.any (matrix.allows context)

end PermissionMatrix

end Agenda
