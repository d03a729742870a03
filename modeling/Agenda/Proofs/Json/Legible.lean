import Agenda.Proofs.Json.Reading
import Agenda.Proofs.Needs.Payload

/-!
Formats whose texts can be read: how deep what they write is nested, field by field and row by row.
Only a count of submissions may be too large for a text.
-/

namespace Agenda

/-- Every value of the type is written as something that a text can carry. -/
class JsonFormat.Legible (α : Type) [JsonFormat α] (depth : outParam Nat) : Prop where
  legible : ∀ value : α, Json.Legible depth (encode value)

namespace JsonFormat

instance : Legible Bool 0 := ⟨fun value => .boolean value⟩

instance : Legible String 0 := ⟨fun value => .string value⟩

instance {α : Type} [Vocabulary α] : Legible α 0 := ⟨fun value => .string (Vocabulary.name value)⟩

instance : Legible GlobalId 0 where
  legible id := .integer id.inRange.1 (by
    have upper := id.inRange.2
    omega)

instance {entity : Entity} : Legible (Id entity) 0 := ⟨fun id => Legible.legible id.global⟩

instance : Legible Instant 0 := ⟨fun instant => .string instant.text⟩

instance {α : Type} {depth : Nat} [JsonFormat α] [Legible α depth] : Legible (List α) (depth + 1) where
  legible values := .array fun item member => by
    obtain ⟨value, -, rfl⟩ := List.mem_map.mp member
    exact Legible.legible value

instance {α : Type} {depth : Nat} [JsonFormat α] [Legible α depth] : Legible (Option α) depth where
  legible value := by
    cases value with
    | none => exact .null
    | some value => exact Legible.legible value

end JsonFormat

structure RecordFormat.Writes {σ α : Type} (format : RecordFormat σ α) (depth : Nat) : Prop where
  shallow : ∀ record, ∀ member ∈ format.write record, Json.Legible depth member.2

namespace RecordFormat.Writes

variable {σ α β : Type} {depth : Nat}

theorem field {nesting : Nat} [JsonFormat α] [JsonFormat.Legible α nesting] (name : String)
    (get : σ → α) (presence : Presence α) (le : nesting ≤ depth) :
    (RecordFormat.field name get presence).Writes depth where
  shallow record member found := by
    rw [List.mem_singleton.mp found]
    exact (JsonFormat.Legible.legible (get record)).mono le

theorem map {format : RecordFormat σ α} (change : α → β) (writes : format.Writes depth) :
    (change <$> format).Writes depth where
  shallow := writes.shallow

theorem seq {first : RecordFormat σ (α → β)} {second : RecordFormat σ α}
    (firstWrites : first.Writes depth) (secondWrites : second.Writes depth) :
    (first <*> second).Writes depth where
  shallow record member found := by
    rcases List.mem_append.mp found with inFirst | inSecond
    · exact firstWrites.shallow record member inFirst
    · exact secondWrites.shallow record member inSecond

theorem legible {format : RecordFormat α α} (writes : format.Writes depth) :
    @JsonFormat.Legible α format.jsonFormat (depth + 1) :=
  @JsonFormat.Legible.mk α format.jsonFormat (depth + 1) fun record => .object (writes.shallow record)

end RecordFormat.Writes

theorem TaggedFormat.legible {κ α : Type} [Vocabulary κ] {format : TaggedFormat κ α} {depth : Nat}
    (content : ∀ value, Json.Legible depth (format.write value).2) :
    @JsonFormat.Legible α format.jsonFormat (depth + 1) :=
  @JsonFormat.Legible.mk α format.jsonFormat (depth + 1) fun value => .object fun member found => by
    rcases List.mem_pair.mp found with rfl | rfl
    · exact .string _
    · exact content value

open JsonFormat RecordFormat

instance : Legible Context 1 :=
  Context.format.legible fun context => by
    cases context with
    | course id => exact Legible.legible id
    | group id => exact Legible.legible id

instance : Legible EffectiveDates 1 := Writes.legible <| by
  repeat' first | apply Writes.field | apply Writes.map | apply Writes.seq
  all_goals decide

instance : Legible Assignment 2 := Writes.legible <| by
  repeat' first | apply Writes.field | apply Writes.map | apply Writes.seq
  all_goals decide

instance : Legible Quiz 2 := Writes.legible <| by
  repeat' first | apply Writes.field | apply Writes.map | apply Writes.seq
  all_goals decide

instance : Legible PeerReview 1 := Writes.legible <| by
  repeat' first | apply Writes.field | apply Writes.map | apply Writes.seq
  all_goals decide

instance : Legible DiscussionTopic 2 := Writes.legible <| by
  repeat' first | apply Writes.field | apply Writes.map | apply Writes.seq
  all_goals decide

instance : Legible WikiPage 2 := Writes.legible <| by
  repeat' first | apply Writes.field | apply Writes.map | apply Writes.seq
  all_goals decide

instance : Legible QuizTodo 3 := Writes.legible <| by
  repeat' first | apply Writes.field | apply Writes.map | apply Writes.seq
  all_goals decide

instance : Legible PeerReviewTodo 2 := Writes.legible <| by
  repeat' first | apply Writes.field | apply Writes.map | apply Writes.seq
  all_goals decide

def AssignmentTodo.CountFits (item : AssignmentTodo) : Prop :=
  ∀ count ∈ item.needsGradingCount, count ≤ Document.significandLimit

theorem AssignmentTodo.legible {item : AssignmentTodo} (fits : item.CountFits) :
    Json.Legible 3 (encode item) := by
  have count : Json.Legible 2 (encode item.needsGradingCount) := by
    cases given : item.needsGradingCount with
    | none => exact .null
    | some count =>
        have bound := fits count given
        simp only [Document.significandLimit] at bound
        exact .integer (by omega) (by omega)
  refine .object fun member found => ?_
  change member ∈ [("assignment", encode item.assignment), ("due_at", encode item.due),
    ("needs_grading_count", encode item.needsGradingCount)] at found
  simp only [List.mem_cons, List.not_mem_nil, or_false] at found
  rcases found with rfl | rfl | rfl
  · exact Legible.legible item.assignment
  · exact (Legible.legible item.due).mono (by omega)
  · exact count

namespace NeedsQuery

def CountFits : (query : NeedsQuery) → query.Item → Prop
  | .submitting _ _, item => AssignmentTodo.CountFits item
  | .grading _, item => AssignmentTodo.CountFits item
  | .moderation, item => AssignmentTodo.CountFits item
  | .quizzes _, _ => True
  | .reviews, _ => True
  | .topics, _ => True
  | .pages, _ => True

theorem legible_items {query : NeedsQuery} {items : List query.Item}
    (fits : ∀ item ∈ items, query.CountFits item) : Json.Legible 4 (encode items) := by
  refine .array fun value among => ?_
  obtain ⟨item, member, rfl⟩ := List.mem_map.mp among
  have own := fits item member
  cases query with
  | submitting kind choice => exact AssignmentTodo.legible own
  | grading kind => exact AssignmentTodo.legible own
  | moderation => exact AssignmentTodo.legible own
  | quizzes choice => exact Legible.legible (show QuizTodo from item)
  | reviews => exact (Legible.legible (show PeerReviewTodo from item)).mono (by omega)
  | topics => exact (Legible.legible (show DiscussionTopic from item)).mono (by omega)
  | pages => exact (Legible.legible (show WikiPage from item)).mono (by omega)

end NeedsQuery

end Agenda
