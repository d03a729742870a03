import Agenda.Proofs.Json.Legible

/-!
The tables of a deployment are read back as they were written, from a JSON value and from its text.
-/

namespace Agenda

open JsonFormat RecordFormat

instance : Lawful Course := by
  apply Reads.lawful
  case reads =>
    repeat' first | apply Reads.field | apply Reads.map | apply Reads.seq
    all_goals decide
  case same => exact fun _ => rfl

instance : Legible Course 1 := Writes.legible <| by
  repeat' first | apply Writes.field | apply Writes.map | apply Writes.seq
  all_goals decide

instance : Lawful Group := by
  apply Reads.lawful
  case reads =>
    repeat' first | apply Reads.field | apply Reads.map | apply Reads.seq
    all_goals decide
  case same => exact fun _ => rfl

instance : Legible Group 1 := Writes.legible <| by
  repeat' first | apply Writes.field | apply Writes.map | apply Writes.seq
  all_goals decide

instance : Lawful Submission := by
  apply Reads.lawful
  case reads =>
    repeat' first | apply Reads.field | apply Reads.map | apply Reads.seq
    all_goals decide
  case same => exact fun _ => rfl

instance : Legible Submission 1 := Writes.legible <| by
  repeat' first | apply Writes.field | apply Writes.map | apply Writes.seq
  all_goals decide

instance : Lawful Enrollment := by
  apply Reads.lawful
  case reads =>
    repeat' first | apply Reads.field | apply Reads.map | apply Reads.seq
    all_goals decide
  case same => exact fun _ => rfl

instance : Legible Enrollment 1 := Writes.legible <| by
  repeat' first | apply Writes.field | apply Writes.map | apply Writes.seq
  all_goals decide

instance : Lawful Membership := by
  apply Reads.lawful
  case reads =>
    repeat' first | apply Reads.field | apply Reads.map | apply Reads.seq
    all_goals decide
  case same => exact fun _ => rfl

instance : Legible Membership 1 := Writes.legible <| by
  repeat' first | apply Writes.field | apply Writes.map | apply Writes.seq
  all_goals decide

instance : Lawful UserMemberships := by
  apply Reads.lawful
  case reads =>
    repeat' first | apply Reads.field | apply Reads.map | apply Reads.seq
    all_goals decide
  case same => exact fun _ => rfl

instance : Legible UserMemberships 3 := Writes.legible <| by
  repeat' first | apply Writes.field | apply Writes.map | apply Writes.seq
  all_goals decide

instance : Lawful ProvisionalGrade := by
  apply Reads.lawful
  case reads =>
    repeat' first | apply Reads.field | apply Reads.map | apply Reads.seq
    all_goals decide
  case same => exact fun _ => rfl

instance : Legible ProvisionalGrade 1 := Writes.legible <| by
  repeat' first | apply Writes.field | apply Writes.map | apply Writes.seq
  all_goals decide

instance : Lawful OverrideTarget :=
  OverrideTarget.format.lawful (by decide) fun target => by
    cases target with
    | assignment id => exact congrArg (Except.map OverrideTarget.assignment) (decode_document id)
    | quiz id => exact congrArg (Except.map OverrideTarget.quiz) (decode_document id)

instance : Legible OverrideTarget 1 :=
  OverrideTarget.format.legible fun target => by
    cases target with
    | assignment id => exact Legible.legible id
    | quiz id => exact Legible.legible id

instance : Lawful DueDateOverride := by
  apply Reads.lawful
  case reads =>
    repeat' first | apply Reads.field | apply Reads.map | apply Reads.seq
    all_goals decide
  case same => exact fun _ => rfl

instance : Legible DueDateOverride 2 := Writes.legible <| by
  repeat' first | apply Writes.field | apply Writes.map | apply Writes.seq
  all_goals decide

instance : Lawful QuizAttempt := by
  apply Reads.lawful
  case reads =>
    repeat' first | apply Reads.field | apply Reads.map | apply Reads.seq
    all_goals decide
  case same => exact fun _ => rfl

instance : Legible QuizAttempt 1 := Writes.legible <| by
  repeat' first | apply Writes.field | apply Writes.map | apply Writes.seq
  all_goals decide

instance : Lawful Asset := by
  apply Reads.lawful
  case reads =>
    repeat' first | apply Reads.field | apply Reads.map | apply Reads.seq
    all_goals decide
  case same => exact fun _ => rfl

instance : Legible Asset 1 := Writes.legible <| by
  repeat' first | apply Writes.field | apply Writes.map | apply Writes.seq
  all_goals decide

instance : Lawful Ignore := by
  apply Reads.lawful
  case reads =>
    repeat' first | apply Reads.field | apply Reads.map | apply Reads.seq
    all_goals decide
  case same => exact fun _ => rfl

instance : Legible Ignore 2 := Writes.legible <| by
  repeat' first | apply Writes.field | apply Writes.map | apply Writes.seq
  all_goals decide

instance : Lawful Tables := by
  apply Reads.lawful
  case reads =>
    repeat' first | apply Reads.field | apply Reads.map | apply Reads.seq
    all_goals decide
  case same => exact fun _ => rfl

instance : Legible Tables 5 := Writes.legible <| by
  repeat' first | apply Writes.field | apply Writes.map | apply Writes.seq
  all_goals decide

namespace Tables

theorem ofJson_encode (tables : Tables) : JsonFormat.ofJson (encode tables) = .ok tables :=
  Lawful.ofJson_encode tables

theorem ofText_text (tables : Tables) : JsonFormat.ofText (encode tables).text = .ok tables :=
  JsonFormat.ofText_text (Legible.legible tables) (by decide)

end Tables

end Agenda
