import Agenda.Needs.Query
import Agenda.Proofs.Json.Faithful
import Agenda.Proofs.Needs.Payload

/-!
Parameters of cached results: for a kind and a purpose they tell the query with its own options and
the shared options.
-/

namespace Agenda

open JsonFormat RecordFormat

instance : Faithful GlobalId where
  eq_of_alike left right alike := by
    have same := Json.eq_of_alike_integer alike
    cases left
    cases right
    simpa using same

instance {entity : Entity} : Faithful (Id entity) where
  eq_of_alike left right alike := by
    have same := eq_of_alike left.global right.global alike
    cases left
    cases right
    simpa using same

instance : Faithful Instant where
  eq_of_alike _ _ alike := Instant.text_injective (Json.eq_of_alike_string alike)

instance : Faithful Context :=
  Context.format.faithful (by decide) fun left right kinds contents => by
    cases left with
    | course id =>
        cases right with
        | course other => exact congrArg Context.course (eq_of_alike id other contents)
        | group other => cases kinds
    | group id =>
        cases right with
        | course other => cases kinds
        | group other => exact congrArg Context.group (eq_of_alike id other contents)

instance : Faithful NeedsOptions := by
  apply Tells.faithful
  case told =>
    repeat' first | apply Tells.field | apply Tells.map | apply Tells.seq
  case distinct => decide
  case same => exact fun _ => rfl

instance : Faithful SubmittingOptions := by
  apply Tells.faithful
  case told =>
    repeat' first | apply Tells.field | apply Tells.map | apply Tells.seq
  case distinct => decide
  case same => exact fun _ => rfl

instance : Faithful QuizOptions := by
  apply Tells.faithful
  case told =>
    apply Tells.map
    apply Tells.field
  case distinct => decide
  case same => exact fun _ => rfl

namespace NeedsQuery

theorem eq_of_alike_options {options others : NeedsOptions}
    (alike : Json.Alike (.object [("options", encode options)])
      (.object [("options", encode others)])) : options = others := by
  have names : [("options", encode options)].map Prod.fst =
      [("options", encode others)].map Prod.fst := rfl
  have members := Json.alike_members names (by simp) alike
  obtain _ | ⟨shared, -⟩ := members
  exact eq_of_alike options others shared

theorem eq_of_alike_choice {α : Type} [JsonFormat α] [Faithful α] {name : String}
    {options others : NeedsOptions} {choice other : α} (different : "options" ≠ name)
    (alike : Json.Alike (.object [("options", encode options), (name, encode choice)])
      (.object [("options", encode others), (name, encode other)])) :
    choice = other ∧ options = others := by
  have names : [("options", encode options), (name, encode choice)].map Prod.fst =
      [("options", encode others), (name, encode other)].map Prod.fst := rfl
  have members := Json.alike_members names (by simpa using different) alike
  obtain _ | ⟨shared, _ | ⟨own, -⟩⟩ := members
  exact ⟨eq_of_alike choice other own, eq_of_alike options others shared⟩

/-- Alike parameters for one kind and purpose come from one query and the same options. -/
theorem eq_of_alike_params {left right : NeedsQuery} {options others : NeedsOptions}
    (kinds : left.objectKind = right.objectKind) (purposes : left.purpose = right.purpose)
    (alike : Json.Alike (left.params options) (right.params others)) :
    left = right ∧ options = others := by
  cases left with
  | submitting kind choice =>
      cases right with
      | submitting otherKind otherChoice =>
          obtain ⟨rfl, rfl⟩ := eq_of_alike_choice (by decide) alike
          cases kind <;> cases otherKind <;> first | exact ⟨rfl, rfl⟩ | cases kinds
      | quizzes otherChoice => cases kind <;> cases kinds
      | _ => cases purposes
  | grading kind =>
      cases right with
      | grading otherKind =>
          obtain rfl := eq_of_alike_options alike
          cases kind <;> cases otherKind <;> first | exact ⟨rfl, rfl⟩ | cases kinds
      | _ => cases purposes
  | moderation =>
      cases right with
      | moderation => exact ⟨rfl, eq_of_alike_options alike⟩
      | _ => cases purposes
  | quizzes choice =>
      cases right with
      | quizzes otherChoice =>
          obtain ⟨rfl, rfl⟩ := eq_of_alike_choice (by decide) alike
          exact ⟨rfl, rfl⟩
      | submitting otherKind otherChoice => cases otherKind <;> cases kinds
      | _ => cases purposes
  | reviews =>
      cases right with
      | reviews => exact ⟨rfl, eq_of_alike_options alike⟩
      | _ => cases purposes
  | topics =>
      cases right with
      | topics => exact ⟨rfl, eq_of_alike_options alike⟩
      | pages => cases kinds
      | _ => cases purposes
  | pages =>
      cases right with
      | pages => exact ⟨rfl, eq_of_alike_options alike⟩
      | topics => cases kinds
      | _ => cases purposes

end NeedsQuery

end Agenda
