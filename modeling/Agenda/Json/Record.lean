import Agenda.Json.Format

/-!
Record formats. A record is written as an object with its fields in order; it is read from an
object, in whatever order the members come, or from an array of its fields. Members of unknown
name are passed over, a repeated field is a fault where its name stands the second time, and a
missing one is noticed at the end.
-/

namespace Agenda

structure Items where
  items : List Document
  fault : Option Fault

namespace Items

def next : Items → Except Fault (Option (Document × Items))
  | ⟨item :: rest, fault⟩ => .ok (some (item, ⟨rest, fault⟩))
  | ⟨[], some fault⟩ => .error fault
  | ⟨[], none⟩ => .ok none

def close {α : Type} (value : α) : Items → Except Fault α
  | ⟨_ :: _, _⟩ => .error .malformed
  | ⟨[], fault⟩ => Document.orFault value fault

end Items

/-- When a field may be left out: its value if an object lacks it, and whether an array may end
before it. -/
structure Presence (α : Type) where
  absent : Option α
  mayEndBefore : Bool

namespace Presence

def required {α : Type} : Presence α := ⟨none, false⟩

def optional {α : Type} : Presence (Option α) := ⟨some none, false⟩

def withDefault {α : Type} (value : α) : Presence α := ⟨some value, true⟩

end Presence

/-- How the fields `α` of a record `σ` are written and read. The draft holds the fields read so
far. -/
structure RecordFormat (σ : Type) (α : Type) where
  Draft : Type
  blank : Draft
  write : σ → List (String × Json)
  take : String → Document → Draft → Option (Except Fault Draft)
  finish : Draft → Except Fault α
  inOrder : Items → Except Fault (α × Items)

namespace RecordFormat

variable {σ α β : Type}

def constant (value : α) : RecordFormat σ α where
  Draft := Unit
  blank := ()
  write _ := []
  take _ _ _ := none
  finish _ := .ok value
  inOrder items := .ok (value, items)

def map (change : α → β) (format : RecordFormat σ α) : RecordFormat σ β where
  Draft := format.Draft
  blank := format.blank
  write := format.write
  take := format.take
  finish draft := (format.finish draft).map change
  inOrder items := do
    let (value, rest) ← format.inOrder items
    .ok (change value, rest)

def andThen (first : RecordFormat σ (α → β)) (second : RecordFormat σ α) : RecordFormat σ β where
  Draft := first.Draft × second.Draft
  blank := (first.blank, second.blank)
  write record := first.write record ++ second.write record
  take name value draft :=
    match first.take name value draft.1 with
    | some taken => some (taken.map fun changed => (changed, draft.2))
    | none => (second.take name value draft.2).map fun taken =>
        taken.map fun changed => (draft.1, changed)
  finish draft := do
    let change ← first.finish draft.1
    let value ← second.finish draft.2
    .ok (change value)
  inOrder items := do
    let (change, items) ← first.inOrder items
    let (value, items) ← second.inOrder items
    .ok (change value, items)

instance : Functor (RecordFormat σ) where
  map := map

instance : Applicative (RecordFormat σ) where
  pure := constant
  seq first second := andThen first (second ())

def field [JsonFormat α] (name : String) (get : σ → α) (presence : Presence α) :
    RecordFormat σ α where
  Draft := Option α
  blank := none
  write record := [(name, JsonFormat.encode (get record))]
  take member value draft :=
    if member = name then
      some (if draft.isSome then .error .misshapen else (JsonFormat.decode value).map some)
    else none
  finish draft :=
    match draft, presence.absent with
    | some value, _ => .ok value
    | none, some value => .ok value
    | none, none => .error .misshapen
  inOrder items := do
    match ← items.next with
    | some (item, rest) => .ok (← JsonFormat.decode item, rest)
    | none =>
        match presence.mayEndBefore, presence.absent with
        | true, some value => .ok (value, items)
        | _, _ => .error .misshapen

def fieldIfAny [JsonFormat α] (name : String) (get : σ → Option α)
    (presence : Presence (Option α)) : RecordFormat σ (Option α) :=
  { field name get presence with
    write := fun record =>
      match get record with
      | none => []
      | some value => [(name, JsonFormat.encode value)] }

def takeAll (format : RecordFormat σ α) :
    List (Reading String × Document) → format.Draft → Except Fault format.Draft
  | [], draft => .ok draft
  | (name, value) :: rest, draft => do
      let name ← name.use
      match format.take name value draft with
      | some taken => takeAll format rest (← taken)
      | none =>
          value.skip
          takeAll format rest draft

def encode (format : RecordFormat σ α) (record : σ) : Json :=
  .object (format.write record)

def decodeObject (format : RecordFormat σ α) : Document → Except Fault α
  | .object members fault => do
      let draft ← format.takeAll members format.blank
      let draft ← Document.orFault draft fault
      format.finish draft
  | .hollow => format.finish format.blank
  | .unnamed => .error .malformed
  | .deep _ => .error .malformed
  | other => .error other.mismatch

def decode (format : RecordFormat σ α) : Document → Except Fault α
  | .array items fault => do
      let (value, rest) ← format.inOrder ⟨items, fault⟩
      rest.close value
  | other => format.decodeObject other

@[reducible]
def jsonFormat (format : RecordFormat α α) : JsonFormat α where
  encode := format.encode
  decode := format.decode

end RecordFormat

end Agenda
