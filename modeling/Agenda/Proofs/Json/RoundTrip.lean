import Agenda.Json.Tagged
import Mathlib

/-!
Reading back what was written, for the formats that others are made of: plain values, lists,
optional values, words of a vocabulary, records and tagged values.
-/

namespace Agenda

namespace JsonFormat

/-- Every value is read back from its written form. -/
class Lawful (α : Type) [JsonFormat α] : Prop where
  ofJson_encode : ∀ value : α, ofJson (encode value) = .ok value

class NeverNull (α : Type) [JsonFormat α] : Prop where
  encode_ne_null : ∀ value : α, encode value ≠ .null

export Lawful (ofJson_encode)

theorem decode_document {α : Type} [JsonFormat α] [Lawful α] (value : α) :
    decode (encode value).document = .ok value :=
  ofJson_encode value

theorem itemDocuments_eq_map (items : List Json) :
    Json.itemDocuments items = items.map Json.document := by
  induction items with
  | nil => rfl
  | cons item rest ih => rw [Json.itemDocuments, ih, List.map_cons]

instance : Lawful Bool where
  ofJson_encode value := by cases value <;> rfl

instance : NeverNull Bool where
  encode_ne_null _ same := by cases same

instance : Lawful String where
  ofJson_encode _ := rfl

instance : NeverNull String where
  encode_ne_null _ same := by cases same

instance : Lawful Nat where
  ofJson_encode value := by
    change Document.natural (.number (.whole (.integer value))) = .ok value
    simp [Document.natural, Document.integer, Reading.use, bind, Except.bind]

instance : NeverNull Nat where
  encode_ne_null _ same := by cases same

theorem mapM_decode {α : Type} [JsonFormat α] [Lawful α] (values : List α) :
    ((values.map encode).map Json.document).mapM (decode (α := α)) = .ok values := by
  induction values with
  | nil => rfl
  | cons value rest ih =>
      simp only [List.map_cons, List.mapM_cons, decode_document, ih]
      rfl

instance {α : Type} [JsonFormat α] [Lawful α] : Lawful (List α) where
  ofJson_encode values := by
    change Document.listOf decode (.array (Json.itemDocuments (values.map encode)) none) = _
    simp only [Document.listOf, itemDocuments_eq_map, mapM_decode]
    rfl

instance {α : Type} [JsonFormat α] : NeverNull (List α) where
  encode_ne_null _ same := by cases same

theorem optional_document {α : Type} (item : Document → Except Fault α) {value : Json}
    (notNull : value ≠ .null) :
    Document.optional item value.document = (item value.document).map some := by
  cases value with
  | null => exact absurd rfl notNull
  | boolean value => cases value <;> rfl
  | _ => rfl

instance {α : Type} [JsonFormat α] [Lawful α] [NeverNull α] : Lawful (Option α) where
  ofJson_encode value := by
    cases value with
    | none => rfl
    | some value =>
        change Document.optional decode (encode value).document = _
        rw [optional_document decode (NeverNull.encode_ne_null value), decode_document]
        rfl

instance {α : Type} [Vocabulary α] : Lawful α where
  ofJson_encode member := by
    change Document.named (.string (.whole (Vocabulary.name member))) = .ok member
    simp [Document.named, Reading.use, Document.ofName, bind, Except.bind]

instance {α : Type} [Vocabulary α] : NeverNull α where
  encode_ne_null _ same := by cases same

end JsonFormat

namespace RecordFormat

variable {σ α β : Type}

/-- The format has fields of these names, and reads from a written record what `get` says. -/
structure Reads (format : RecordFormat σ α) (names : List String) (get : σ → α) : Prop where
  writes : ∀ record, ∀ member ∈ format.write record, member.1 ∈ names
  takes : ∀ name ∈ names, ∀ value draft, (format.take name value draft).isSome
  passes : ∀ name ∉ names, ∀ value draft, format.take name value draft = none
  recovers : ∀ record, ∃ draft,
    format.takeAll (Json.memberDocuments (format.write record)) format.blank = .ok draft ∧
      format.finish draft = .ok (get record)

theorem memberDocuments_append (first second : List (String × Json)) :
    Json.memberDocuments (first ++ second) =
      Json.memberDocuments first ++ Json.memberDocuments second := by
  induction first with
  | nil => rfl
  | cons member rest ih =>
      obtain ⟨name, value⟩ := member
      simp only [List.cons_append, Json.memberDocuments, ih]

theorem takeAll_append (format : RecordFormat σ α)
    (first second : List (Reading String × Document)) (draft : format.Draft) :
    format.takeAll (first ++ second) draft =
      (format.takeAll first draft).bind (format.takeAll second) := by
  induction first generalizing draft with
  | nil => rfl
  | cons member rest ih =>
      obtain ⟨name, value⟩ := member
      simp only [List.cons_append, takeAll]
      cases name.use with
      | error fault => rfl
      | ok name =>
          simp only [bind, Except.bind]
          cases format.take name value draft with
          | none =>
              cases value.skip with
              | error fault => rfl
              | ok done => exact ih draft
          | some taken =>
              cases taken with
              | error fault => rfl
              | ok changed => exact ih changed

theorem takeAll_map (change : α → β) (format : RecordFormat σ α)
    (members : List (Reading String × Document)) (draft : format.Draft) :
    (format.map change).takeAll members draft = format.takeAll members draft := by
  obtain ⟨Draft, blank, write, take, finish, inOrder⟩ := format
  induction members generalizing draft with
  | nil => rfl
  | cons member rest ih =>
      obtain ⟨name, value⟩ := member
      simp only [map] at ih
      simp only [map, takeAll, ih]
      cases name.use with
      | error fault => rfl
      | ok name =>
          simp only [bind, Except.bind]
          cases take name value draft with
          | none => rfl
          | some taken =>
              cases taken with
              | error fault => rfl
              | ok changed => rfl

theorem takeAll_andThen_first {first : RecordFormat σ (α → β)} (second : RecordFormat σ α)
    {members : List (String × Json)}
    (known : ∀ member ∈ members, ∀ value draft, (first.take member.1 value draft).isSome)
    (draft : first.Draft) (other : second.Draft) :
    (first.andThen second).takeAll (Json.memberDocuments members) (draft, other) =
      (first.takeAll (Json.memberDocuments members) draft).map fun changed => (changed, other) := by
  induction members generalizing draft with
  | nil => rfl
  | cons member rest ih =>
      obtain ⟨name, value⟩ := member
      have later := ih fun member found => known member (List.mem_cons_of_mem _ found)
      obtain ⟨taken, take⟩ := Option.isSome_iff_exists.mp
        (known (name, value) List.mem_cons_self value.document draft)
      simp only [Json.memberDocuments, takeAll, Reading.use, andThen, bind, Except.bind, take]
      cases taken with
      | error fault => rfl
      | ok changed => exact later changed

theorem takeAll_andThen_second (first : RecordFormat σ (α → β)) (second : RecordFormat σ α)
    {members : List (String × Json)}
    (unknown : ∀ member ∈ members, ∀ value draft, first.take member.1 value draft = none)
    (known : ∀ member ∈ members, ∀ value draft, (second.take member.1 value draft).isSome)
    (other : first.Draft) (draft : second.Draft) :
    (first.andThen second).takeAll (Json.memberDocuments members) (other, draft) =
      (second.takeAll (Json.memberDocuments members) draft).map fun changed => (other, changed) := by
  induction members generalizing draft with
  | nil => rfl
  | cons member rest ih =>
      obtain ⟨name, value⟩ := member
      have later := ih (fun member found => unknown member (List.mem_cons_of_mem _ found))
        (fun member found => known member (List.mem_cons_of_mem _ found))
      have passed := unknown (name, value) List.mem_cons_self value.document other
      obtain ⟨taken, take⟩ := Option.isSome_iff_exists.mp
        (known (name, value) List.mem_cons_self value.document draft)
      simp only [Json.memberDocuments, takeAll, Reading.use, andThen, bind, Except.bind, passed,
        take, Option.map_some]
      cases taken with
      | error fault => rfl
      | ok changed => exact later changed

namespace Reads

variable {names others : List String}

theorem field [JsonFormat α] [JsonFormat.Lawful α] (name : String) (get : σ → α)
    (presence : Presence α) : (RecordFormat.field name get presence).Reads [name] get where
  writes record member found := by
    rw [List.mem_singleton.mp found]
    exact List.mem_singleton_self name
  takes other found value draft := by
    rw [List.mem_singleton] at found
    simp [RecordFormat.field, found]
  passes other missing value draft := by
    rw [List.mem_singleton] at missing
    simp [RecordFormat.field, missing]
  recovers record := by
    refine ⟨some (get record), ?_, rfl⟩
    simp [RecordFormat.field, Json.memberDocuments, takeAll, Reading.use, bind, Except.bind,
      JsonFormat.decode_document, Except.map]

theorem fieldIfAny [JsonFormat α] (name : String) (get read : σ → Option α)
    (missing : ∀ record, get record = none → read record = none)
    (present : ∀ record value, get record = some value →
      JsonFormat.decode (JsonFormat.encode value).document = .ok (read record)) :
    (RecordFormat.fieldIfAny name get .optional).Reads [name] read where
  writes record member found := by
    cases given : get record with
    | none => simp [RecordFormat.fieldIfAny, given] at found
    | some value =>
        simp only [RecordFormat.fieldIfAny, given, List.mem_singleton] at found
        rw [found]
        exact List.mem_singleton_self name
  takes other found value draft := by
    rw [List.mem_singleton] at found
    simp [RecordFormat.fieldIfAny, RecordFormat.field, found]
  passes other absent value draft := by
    rw [List.mem_singleton] at absent
    simp [RecordFormat.fieldIfAny, RecordFormat.field, absent]
  recovers record := by
    cases given : get record with
    | none =>
        refine ⟨none, ?_, ?_⟩
        · simp [RecordFormat.fieldIfAny, RecordFormat.field, given, Json.memberDocuments, takeAll]
        · rw [missing record given]
          rfl
    | some value =>
        refine ⟨some (read record), ?_, rfl⟩
        simp [RecordFormat.fieldIfAny, RecordFormat.field, given, Json.memberDocuments, takeAll,
          Reading.use, bind, Except.bind, present record value given, Except.map]

theorem map {format : RecordFormat σ α} {get : σ → α} (change : α → β)
    (reads : format.Reads names get) :
    (change <$> format).Reads names fun record => change (get record) where
  writes := reads.writes
  takes := reads.takes
  passes := reads.passes
  recovers record := by
    obtain ⟨draft, taken, finished⟩ := reads.recovers record
    refine ⟨draft, (takeAll_map change format _ _).trans taken, ?_⟩
    change (format.finish draft).map change = _
    rw [finished]
    rfl

theorem seq {first : RecordFormat σ (α → β)} {second : RecordFormat σ α} {getFirst : σ → α → β}
    {getSecond : σ → α} (firstReads : first.Reads names getFirst)
    (secondReads : second.Reads others getSecond) (disjoint : ∀ name ∈ names, name ∉ others) :
    (first <*> second).Reads (names ++ others) fun record =>
      getFirst record (getSecond record) where
  writes record member found := by
    rcases List.mem_append.mp found with inFirst | inSecond
    · exact List.mem_append_left _ (firstReads.writes record member inFirst)
    · exact List.mem_append_right _ (secondReads.writes record member inSecond)
  takes name found value draft := by
    change ((first.andThen second).take name value draft).isSome
    simp only [andThen]
    by_cases inFirst : name ∈ names
    · obtain ⟨taken, take⟩ := Option.isSome_iff_exists.mp
        (firstReads.takes name inFirst value draft.1)
      simp [take]
    · have inSecond := (List.mem_append.mp found).resolve_left inFirst
      rw [firstReads.passes name inFirst value draft.1]
      simpa using secondReads.takes name inSecond value draft.2
  passes name missing value draft := by
    change (first.andThen second).take name value draft = none
    rw [List.mem_append, not_or] at missing
    simp [andThen, firstReads.passes name missing.1, secondReads.passes name missing.2]
  recovers record := by
    obtain ⟨draft, taken, finished⟩ := firstReads.recovers record
    obtain ⟨other, otherTaken, otherFinished⟩ := secondReads.recovers record
    have start := takeAll_andThen_first second
      (fun member found => firstReads.takes member.1 (firstReads.writes record member found))
      first.blank second.blank
    have next := takeAll_andThen_second first second
      (fun member found => firstReads.passes member.1 fun inFirst =>
        disjoint member.1 inFirst (secondReads.writes record member found))
      (fun member found => secondReads.takes member.1 (secondReads.writes record member found))
      draft second.blank
    rw [taken] at start
    rw [otherTaken] at next
    refine ⟨(draft, other), ?_, ?_⟩
    · calc (first.andThen second).takeAll
            (Json.memberDocuments (first.write record ++ second.write record))
            (first.blank, second.blank)
        _ = ((first.andThen second).takeAll (Json.memberDocuments (first.write record))
              (first.blank, second.blank)).bind
              ((first.andThen second).takeAll (Json.memberDocuments (second.write record))) := by
          rw [memberDocuments_append]
          exact takeAll_append (first.andThen second) _ _ _
        _ = (first.andThen second).takeAll (Json.memberDocuments (second.write record))
              (draft, second.blank) := by
          rw [start]
          rfl
        _ = .ok (draft, other) := next
    · change (do
        let change ← first.finish draft
        let value ← second.finish other
        Except.ok (change value)) = _
      rw [finished, otherFinished]
      rfl

theorem decode_encode {format : RecordFormat σ α} {get : σ → α} (reads : format.Reads names get)
    (record : σ) : format.decode (format.encode record).document = .ok (get record) := by
  obtain ⟨draft, taken, finished⟩ := reads.recovers record
  change format.decode (.object (Json.memberDocuments (format.write record)) none) = _
  simp only [decode, decodeObject, taken, bind, Except.bind, Document.orFault, finished]

theorem lawful {format : RecordFormat α α} {get : α → α} (reads : format.Reads names get)
    (same : ∀ record, get record = record) : @JsonFormat.Lawful α format.jsonFormat :=
  @JsonFormat.Lawful.mk α format.jsonFormat fun record =>
    (reads.decode_encode record).trans (congrArg Except.ok (same record))

end Reads

theorem neverNull (format : RecordFormat α α) : @JsonFormat.NeverNull α format.jsonFormat :=
  @JsonFormat.NeverNull.mk α format.jsonFormat fun _ same => by cases same

end RecordFormat

namespace TaggedFormat

variable {κ α : Type} [Vocabulary κ]

theorem lawful {format : TaggedFormat κ α} (different : format.tagName ≠ format.contentName)
    (content : ∀ value,
      format.content (format.write value).1 (format.write value).2.document = .ok value) :
    @JsonFormat.Lawful α format.jsonFormat :=
  @JsonFormat.Lawful.mk α format.jsonFormat fun value => by
    have tag : Document.named (.string (.whole (Vocabulary.name (format.write value).1))) =
        .ok (format.write value).1 :=
      JsonFormat.ofJson_encode (format.write value).1
    change format.decode (.object
      [(.whole format.tagName, .string (.whole (Vocabulary.name (format.write value).1))),
        (.whole format.contentName, (format.write value).2.document)] none) = _
    simp [decode, takeAll, takeTag, takeContent, Reading.use, bind, Except.bind, different.symm,
      tag, content, Document.orFault]

theorem neverNull (format : TaggedFormat κ α) : @JsonFormat.NeverNull α format.jsonFormat :=
  @JsonFormat.NeverNull.mk α format.jsonFormat fun _ same => by cases same

end TaggedFormat

end Agenda
