import Agenda.Json.Format
import Agenda.Ranked

/-!
Global ids: signed 64-bit numbers, told apart by the kind of record that they name.
-/

namespace Agenda

structure GlobalId where
  value : Int
  inRange : -9223372036854775808 ≤ value ∧ value ≤ 9223372036854775807
deriving DecidableEq, Repr

namespace GlobalId

def of? (value : Int) : Option GlobalId :=
  if inRange : -9223372036854775808 ≤ value ∧ value ≤ 9223372036854775807 then
    some ⟨value, inRange⟩
  else none

def text (id : GlobalId) : String :=
  toString id.value

instance : Ranked GlobalId where
  rank id := (id.value, 0)
  rank_injective := by
    rintro ⟨left, _⟩ ⟨right, _⟩ same
    simpa using same

instance : JsonFormat GlobalId where
  encode id := Json.integer id.value
  decode document := do
    let value ← document.integer
    match of? value with
    | some id => .ok id
    | none => .error .misshapen

end GlobalId

inductive Entity where
  | user
  | account
  | course
  | group
  | section
  | assignment
  | submission
  | quiz
  | topic
  | page
  | review
deriving DecidableEq, Repr

structure Id (entity : Entity) where
  global : GlobalId
deriving DecidableEq, Repr

namespace Id

variable {entity : Entity}

def text (id : Id entity) : String :=
  id.global.text

instance : Ranked (Id entity) where
  rank id := (id.global.value, 0)
  rank_injective := by
    rintro ⟨left⟩ ⟨right⟩ same
    rw [Ranked.rank_injective left right same]

instance : JsonFormat (Id entity) where
  encode id := JsonFormat.encode id.global
  decode document := do
    let global ← JsonFormat.decode document
    .ok ⟨global⟩

end Id

abbrev UserId := Id .user
abbrev AccountId := Id .account
abbrev CourseId := Id .course
abbrev GroupId := Id .group
abbrev SectionId := Id .section
abbrev AssignmentId := Id .assignment
abbrev SubmissionId := Id .submission
abbrev QuizId := Id .quiz
abbrev TopicId := Id .topic
abbrev PageId := Id .page
abbrev ReviewId := Id .review

end Agenda
