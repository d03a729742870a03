import Agenda.Json.Record

/-!
Tagged values: an object with one member that names the case and one that holds its content, or an
array of the two. The members may come in either order; content that stands first is read as plain
JSON and takes its shape once the case is known. An array names its case by a bare word.
-/

namespace Agenda

/-- How a tagged type is written and read: its cases form a vocabulary. -/
structure TaggedFormat (κ : Type) (α : Type) where
  tagName : String
  contentName : String
  write : α → κ × Json
  content : κ → Document → Except Fault α

namespace TaggedFormat

variable {κ α : Type} [Vocabulary κ]

inductive Draft (κ : Type) (α : Type) where
  | blank
  | tagged (kind : κ)
  | waiting (content : Document)
  | complete (value : α)

def encode (format : TaggedFormat κ α) (value : α) : Json :=
  let (kind, content) := format.write value
  .object [(format.tagName, .string (Vocabulary.name kind)), (format.contentName, content)]

def takeTag (format : TaggedFormat κ α) (value : Document) :
    Draft κ α → Except Fault (Draft κ α)
  | .blank => do
      let kind ← Document.named value
      .ok (.tagged kind)
  | .waiting content => do
      let kind ← Document.named value
      let complete ← format.content kind content
      .ok (.complete complete)
  | .tagged _ => .error .misshapen
  | .complete _ => .error .misshapen

def takeContent (format : TaggedFormat κ α) (value : Document) :
    Draft κ α → Except Fault (Draft κ α)
  | .blank => do
      let _ ← value.value
      .ok (.waiting value)
  | .tagged kind => do
      let complete ← format.content kind value
      .ok (.complete complete)
  | .waiting _ => .error .misshapen
  | .complete _ => .error .misshapen

def takeAll (format : TaggedFormat κ α) :
    List (Reading String × Document) → Draft κ α → Except Fault (Draft κ α)
  | [], draft => .ok draft
  | (name, value) :: rest, draft => do
      let name ← name.use
      if name = format.tagName then
        takeAll format rest (← format.takeTag value draft)
      else if name = format.contentName then
        takeAll format rest (← format.takeContent value draft)
      else
        value.skip
        takeAll format rest draft

def decode (format : TaggedFormat κ α) : Document → Except Fault α
  | .object members fault => do
      let draft ← format.takeAll members .blank
      match ← Document.orFault draft fault with
      | .complete value => .ok value
      | _ => .error .misshapen
  | .array items fault => do
      match ← Items.next ⟨items, fault⟩ with
      | none => .error .misshapen
      | some (first, rest) =>
          let kind ← Document.bare first
          match ← rest.next with
          | none => .error .misshapen
          | some (second, rest) =>
              let value ← format.content kind second
              rest.close value
  | .unnamed => .error .malformed
  | .deep _ => .error .malformed
  | other => .error other.mismatch

@[reducible]
def jsonFormat (format : TaggedFormat κ α) : JsonFormat α where
  encode := format.encode
  decode := format.decode

end TaggedFormat

end Agenda
