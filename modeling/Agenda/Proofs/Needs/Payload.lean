import Agenda.Needs.Query
import Agenda.Proofs.Json.RoundTrip
import Agenda.Proofs.Time.Rfc3339
import Mathlib

/-!
Payloads: the items of every query are read back from the cache as they were written.
-/

namespace Agenda

open JsonFormat RecordFormat

instance : Lawful GlobalId where
  ofJson_encode id := by
    change (do
      let value ← Document.integer (.number (.whole (.integer id.value)))
      match GlobalId.of? value with
      | some id => Except.ok id
      | none => .error .misshapen) = .ok id
    simp [Document.integer, Reading.use, bind, Except.bind, GlobalId.of?, id.inRange]

instance : NeverNull GlobalId where
  encode_ne_null _ same := by cases same

instance {entity : Entity} : Lawful (Id entity) where
  ofJson_encode id := by
    change (do
      let global ← JsonFormat.decode (JsonFormat.encode id.global).document
      Except.ok (⟨global⟩ : Id entity)) = _
    rw [decode_document]
    rfl

instance {entity : Entity} : NeverNull (Id entity) where
  encode_ne_null _ same := by cases same

instance : Lawful Instant where
  ofJson_encode instant := by
    change (do
      let text ← Document.text (.string (.whole instant.text))
      match Instant.ofText? text with
      | some instant => Except.ok instant
      | none => .error .misshapen) = .ok instant
    simp [Document.text, Reading.use, bind, Except.bind]

instance : NeverNull Instant where
  encode_ne_null _ same := by cases same

instance : Lawful Context :=
  Context.format.lawful (by decide) fun context => by
    cases context with
    | course id => exact congrArg (Except.map Context.course) (decode_document id)
    | group id => exact congrArg (Except.map Context.group) (decode_document id)

instance : NeverNull Context :=
  Context.format.neverNull

instance : Lawful EffectiveDates := by
  apply Reads.lawful
  case reads =>
    repeat' first | apply Reads.field | apply Reads.map | apply Reads.seq
    all_goals decide
  case same => exact fun _ => rfl

instance : Lawful Assignment := by
  apply Reads.lawful
  case reads =>
    repeat' first | apply Reads.field | apply Reads.map | apply Reads.seq
    all_goals decide
  case same => exact fun _ => rfl

instance : Lawful Quiz := by
  apply Reads.lawful
  case reads =>
    repeat' first | apply Reads.field | apply Reads.map | apply Reads.seq
    all_goals decide
  case same => exact fun _ => rfl

instance : Lawful PeerReview := by
  apply Reads.lawful
  case reads =>
    repeat' first | apply Reads.field | apply Reads.map | apply Reads.seq
    all_goals decide
  case same => exact fun _ => rfl

instance : Lawful DiscussionTopic := by
  apply Reads.lawful
  case reads =>
    repeat' first | apply Reads.field | apply Reads.map | apply Reads.seq
    all_goals decide
  case same => exact fun _ => rfl

instance : Lawful WikiPage := by
  apply Reads.lawful
  case reads =>
    repeat' first | apply Reads.field | apply Reads.map | apply Reads.seq
    all_goals decide
  case same => exact fun _ => rfl

instance : Lawful AssignmentTodo := by
  apply Reads.lawful
  case reads =>
    repeat' first | apply Reads.field | apply Reads.map | apply Reads.seq
    all_goals decide
  case same => exact fun _ => rfl

instance : Lawful QuizTodo := by
  apply Reads.lawful
  case reads =>
    repeat' first | apply Reads.field | apply Reads.map | apply Reads.seq
    all_goals decide
  case same => exact fun _ => rfl

instance : Lawful PeerReviewTodo := by
  apply Reads.lawful
  case reads =>
    repeat' first | apply Reads.field | apply Reads.map | apply Reads.seq
    all_goals decide
  case same => exact fun _ => rfl

namespace NeedsQuery

instance : (query : NeedsQuery) → Lawful query.Item
  | .submitting _ _ => inferInstanceAs (Lawful AssignmentTodo)
  | .grading _ => inferInstanceAs (Lawful AssignmentTodo)
  | .moderation => inferInstanceAs (Lawful AssignmentTodo)
  | .quizzes _ => inferInstanceAs (Lawful QuizTodo)
  | .reviews => inferInstanceAs (Lawful PeerReviewTodo)
  | .topics => inferInstanceAs (Lawful DiscussionTopic)
  | .pages => inferInstanceAs (Lawful WikiPage)

end NeedsQuery

end Agenda
