import Agenda.Number.Binary64

/-!
JSON values. A number is an integer or a double, as its text was written; an object is the list of
its members.
-/

namespace Agenda

/-- A JSON number: written as an integer within 64 bits, or a double. -/
inductive JsonNumber where
  | integer (value : Int)
  | double (value : Binary64)
deriving DecidableEq, Repr

inductive Json where
  | null
  | boolean (value : Bool)
  | number (value : JsonNumber)
  | string (value : String)
  | array (items : List Json)
  | object (members : List (String × Json))
deriving Repr

namespace Json

def integer (value : Int) : Json :=
  .number (.integer value)

def natural (value : Nat) : Json :=
  .integer value

def orNull : Option Json → Json
  | none => .null
  | some value => value

def member? (name : String) : Json → Option Json
  | .object members => members.lookup name
  | _ => none

/-- Members with one more: a member of the same name is replaced where it stands. -/
def insertMember (name : String) (value : Json) :
    List (String × Json) → List (String × Json)
  | [] => [(name, value)]
  | member :: rest =>
      if member.1 = name then (name, value) :: rest else member :: insertMember name value rest

def overlay (lower upper : List (String × Json)) : List (String × Json) :=
  upper.foldl (fun members member => insertMember member.1 member.2 members) lower

end Json

end Agenda
