import Agenda.Json.Tagged
import Agenda.Proofs.Json.Canonical
import Agenda.Proofs.Json.RoundTrip

/-!
Formats that tell values apart: two values whose JSON forms are alike are the same value. The order
of members says nothing, so a record is told by the values under its names.
-/

namespace Agenda

namespace Vocabulary

theorem name_injective {α : Type} [Vocabulary α] {left right : α}
    (same : name left = name right) : left = right := by
  have found := ofName?_name left
  rw [same, ofName?_name] at found
  exact (Option.some.inj found).symm

theorem mem_all {α : Type} [Vocabulary α] (member : α) : member ∈ (all : List α) :=
  List.mem_of_find?_eq_some (find_name member)

end Vocabulary

namespace Json

theorem eq_of_alike_string {left right : String} (alike : Alike (.string left) (.string right)) :
    left = right := by
  cases alike
  rfl

theorem eq_of_alike_integer {left right : Int} (alike : Alike (.integer left) (.integer right)) :
    left = right := by
  obtain _ | _ | same := alike
  exact Int.repr_injective (String.toList_inj.mp same)

theorem eq_of_perm_of_names {left right : List (String × Json)} (perm : left.Perm right)
    (names : left.map Prod.fst = right.map Prod.fst) (distinct : (right.map Prod.fst).Nodup) :
    left = right := by
  apply List.ext_getElem perm.length_eq
  intro place inLeft inRight
  have member : left[place] ∈ right := perm.mem_iff.mp (List.getElem_mem inLeft)
  apply List.inj_on_of_nodup_map distinct member (List.getElem_mem inRight)
  have named := congrArg (fun list : List String => list[place]?) names
  simpa [inLeft, inRight] using named

theorem alike_members {left right : List (String × Json)}
    (names : left.map Prod.fst = right.map Prod.fst) (distinct : (right.map Prod.fst).Nodup)
    (alike : Alike (.object left) (.object right)) :
    List.Forall₂ Alike (left.map Prod.snd) (right.map Prod.snd) := by
  cases alike with
  | @object _ ordered _ orderedNames values perm =>
      rw [← eq_of_perm_of_names perm (orderedNames.symm.trans names) distinct]
      exact values

end Json

namespace JsonFormat

/-- Values with alike forms are equal. -/
class Faithful (α : Type) [JsonFormat α] : Prop where
  eq_of_alike : ∀ left right : α, Json.Alike (encode left) (encode right) → left = right

export Faithful (eq_of_alike)

instance : Faithful Bool where
  eq_of_alike left right alike := by
    cases alike
    rfl

instance : Faithful Nat where
  eq_of_alike _ _ alike := Int.ofNat.inj (Json.eq_of_alike_integer alike)

instance {α : Type} [Vocabulary α] : Faithful α where
  eq_of_alike _ _ alike := Vocabulary.name_injective (Json.eq_of_alike_string alike)

instance {α : Type} [JsonFormat α] [Faithful α] : Faithful (List α) where
  eq_of_alike left right alike := by
    obtain _ | _ | _ | _ | items := alike
    rw [List.forall₂_map_left_iff, List.forall₂_map_right_iff] at items
    exact List.forall₂_eq_eq_eq ▸ items.imp fun first second => eq_of_alike first second

instance {α : Type} [JsonFormat α] [Faithful α] [NeverNull α] : Faithful (Option α) where
  eq_of_alike left right alike := by
    have notNull (value : α) : encode value ≠ .null := NeverNull.encode_ne_null value
    cases left with
    | none =>
        cases right with
        | none => rfl
        | some value =>
            change Json.Alike .null (encode value) at alike
            generalize form : encode value = json at alike
            cases alike
            exact absurd form (notNull value)
    | some value =>
        cases right with
        | none =>
            change Json.Alike (encode value) .null at alike
            generalize form : encode value = json at alike
            cases alike
            exact absurd form (notNull value)
        | some other => exact congrArg some (eq_of_alike value other alike)

end JsonFormat

namespace RecordFormat

variable {σ α β : Type}

structure Tells (format : RecordFormat σ α) (names : List String) (get : σ → α) : Prop where
  named : ∀ record, (format.write record).map Prod.fst = names
  tells : ∀ left right, List.Forall₂ Json.Alike ((format.write left).map Prod.snd)
    ((format.write right).map Prod.snd) → get left = get right

namespace Tells

variable {names others : List String}

theorem field [JsonFormat α] [JsonFormat.Faithful α] (name : String) (get : σ → α)
    (presence : Presence α) : (RecordFormat.field name get presence).Tells [name] get where
  named _ := rfl
  tells left right alike := by
    obtain _ | ⟨same, -⟩ := alike
    exact JsonFormat.eq_of_alike _ _ same

theorem map {format : RecordFormat σ α} {get : σ → α} (change : α → β)
    (told : format.Tells names get) :
    (change <$> format).Tells names fun record => change (get record) where
  named := told.named
  tells left right alike := congrArg change (told.tells left right alike)

theorem seq {first : RecordFormat σ (α → β)} {second : RecordFormat σ α} {getFirst : σ → α → β}
    {getSecond : σ → α} (firstTold : first.Tells names getFirst)
    (secondTold : second.Tells others getSecond) :
    (first <*> second).Tells (names ++ others) fun record =>
      getFirst record (getSecond record) where
  named record := by
    change (first.write record ++ second.write record).map Prod.fst = _
    rw [List.map_append, firstTold.named, secondTold.named]
  tells left right alike := by
    change List.Forall₂ Json.Alike ((first.write left ++ second.write left).map Prod.snd)
      ((first.write right ++ second.write right).map Prod.snd) at alike
    have length (record : σ) : ((first.write record).map Prod.snd).length = names.length := by
      rw [← firstTold.named record, List.length_map, List.length_map]
    rw [List.map_append, List.map_append] at alike
    have inFirst := List.forall₂_take names.length alike
    have inSecond := List.forall₂_drop names.length alike
    rw [List.take_left' (length left), List.take_left' (length right)] at inFirst
    rw [List.drop_left' (length left), List.drop_left' (length right)] at inSecond
    rw [firstTold.tells left right inFirst, secondTold.tells left right inSecond]

theorem faithful {format : RecordFormat α α} {get : α → α} (told : format.Tells names get)
    (distinct : names.Nodup) (same : ∀ record, get record = record) :
    @JsonFormat.Faithful α format.jsonFormat :=
  @JsonFormat.Faithful.mk α format.jsonFormat fun left right alike => by
    rw [← same left, ← same right]
    apply told.tells
    apply Json.alike_members _ _ alike
    · rw [told.named, told.named]
    · rw [told.named]
      exact distinct

end Tells

end RecordFormat

namespace TaggedFormat

variable {κ α : Type} [Vocabulary κ]

def members (format : TaggedFormat κ α) (value : α) : List (String × Json) :=
  [(format.tagName, .string (Vocabulary.name (format.write value).1)),
    (format.contentName, (format.write value).2)]

theorem faithful {format : TaggedFormat κ α}
    (different : format.tagName ≠ format.contentName)
    (content : ∀ left right, (format.write left).1 = (format.write right).1 →
      Json.Alike (format.write left).2 (format.write right).2 → left = right) :
    @JsonFormat.Faithful α format.jsonFormat :=
  @JsonFormat.Faithful.mk α format.jsonFormat fun left right alike => by
    change Json.Alike (.object (format.members left)) (.object (format.members right)) at alike
    have distinct : ((format.members right).map Prod.fst).Nodup := by
      simpa [members] using different
    have names : (format.members left).map Prod.fst = (format.members right).map Prod.fst := rfl
    have members := Json.alike_members names distinct alike
    obtain _ | ⟨tags, _ | ⟨contents, -⟩⟩ := members
    exact content left right (Vocabulary.name_injective (Json.eq_of_alike_string tags)) contents

end TaggedFormat

end Agenda
