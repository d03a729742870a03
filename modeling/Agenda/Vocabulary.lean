/-!
Closed vocabularies: the states, kinds and roles that rows name by a fixed word.
-/

namespace Agenda

/-- A finite type whose members have distinct written names. -/
class Vocabulary (α : Type) where
  all : List α
  name : α → String
  find_name : ∀ member, all.find? (fun other => name other == name member) = some member := by
    intro member
    cases member <;> rfl

namespace Vocabulary

variable {α : Type} [Vocabulary α]

def ofName? (text : String) : Option α :=
  (all : List α).find? fun member => name member == text

@[simp] theorem ofName?_name (member : α) : ofName? (name member) = some member :=
  find_name member

end Vocabulary

end Agenda
