import Agenda.Json.Document
import Agenda.Vocabulary

/-!
The JSON form of a type: a writer of values and a reader of documents. Readers go through a
document from left to right and report the first fault they meet, be it in the text or in the
shape of the value.
-/

namespace Agenda

namespace Document

def mismatch : Document → Fault
  | .absent => .unfinished
  | .stray => .malformed
  | .word _ fault => fault.getD .misshapen
  | .number (.whole _) => .misshapen
  | .number (.broken used _) => used
  | .string (.whole _) => .misshapen
  | .string (.broken used _) => used
  | .array _ _ => .misshapen
  | .object _ _ => .misshapen
  | .unnamed => .misshapen
  | .deep _ => .misshapen
  | .hollow => .misshapen
  | .ordinal _ => .misshapen

def orFault {α : Type} (value : α) : Option Fault → Except Fault α
  | none => .ok value
  | some fault => .error fault

mutual

/-- Passes over a value that nobody wants; only faults that stop the reading of the text count. -/
def skip : Document → Except Fault Unit
  | .absent => .error .unfinished
  | .stray => .error .malformed
  | .word _ fault => orFault () fault
  | .number reading => reading.skip
  | .string reading => reading.skip
  | .array items fault => do
      skipItems items
      orFault () fault
  | .object members fault => do
      skipMembers members
      orFault () fault
  | .unnamed => .error .malformed
  | .deep inner => inner.skip
  | .hollow => .ok ()
  | .ordinal _ => .ok ()

def skipItems : List Document → Except Fault Unit
  | [] => .ok ()
  | item :: rest => do
      item.skip
      skipItems rest

def skipMembers : List (Reading String × Document) → Except Fault Unit
  | [] => .ok ()
  | (name, value) :: rest => do
      name.skip
      value.skip
      skipMembers rest

end

mutual

/-- The value that stands here, whatever it is. Of members of one name the last one counts. -/
def value : Document → Except Fault Json
  | .absent => .error .unfinished
  | .stray => .error .malformed
  | .word .null fault => orFault .null fault
  | .word .yes fault => orFault (.boolean true) fault
  | .word .no fault => orFault (.boolean false) fault
  | .number reading => reading.use.map .number
  | .string reading => reading.use.map .string
  | .array items fault => do
      let items ← itemValues items
      orFault (.array items) fault
  | .object members fault => do
      let members ← memberValues members
      orFault (.object (Json.overlay [] members)) fault
  | .unnamed => .error .malformed
  | .deep _ => .error .malformed
  | .hollow => .ok (.object [])
  | .ordinal value => .ok (.natural value)

def itemValues : List Document → Except Fault (List Json)
  | [] => .ok []
  | item :: rest => do
      let first ← item.value
      let others ← itemValues rest
      .ok (first :: others)

def memberValues : List (Reading String × Document) → Except Fault (List (String × Json))
  | [] => .ok []
  | (name, value) :: rest => do
      let name ← name.use
      let first ← value.value
      let others ← memberValues rest
      .ok ((name, first) :: others)

end

mutual

def kept : Document → Document
  | .number (.whole (.integer (.ofNat value))) => .ordinal value
  | .array items fault => .array (keptItems items) fault
  | .object [] none => .hollow
  | .object members fault => .object (keptMembers members) fault
  | other => other

def keptItems : List Document → List Document
  | [] => []
  | item :: rest => item.kept :: keptItems rest

def keptMembers : List (Reading String × Document) → List (Reading String × Document)
  | [] => []
  | (name, value) :: rest => (name, value.kept) :: keptMembers rest

end

def boolean : Document → Except Fault Bool
  | .word .yes fault => orFault true fault
  | .word .no fault => orFault false fault
  | other => .error other.mismatch

def text : Document → Except Fault String
  | .string reading => reading.use
  | other => .error other.mismatch

def integer : Document → Except Fault Int
  | .number reading => do
      match ← reading.use with
      | .integer value => .ok value
      | .double _ => .error .misshapen
  | .ordinal value => .ok value
  | other => .error other.mismatch

def natural (document : Document) : Except Fault Nat := do
  let value ← document.integer
  if 0 ≤ value then .ok value.toNat else .error .misshapen

def nothing : Document → Except Fault Unit
  | .word .null fault => orFault () fault
  | .hollow => .ok ()
  | other => .error other.mismatch

def listOf {α : Type} (item : Document → Except Fault α) : Document → Except Fault (List α)
  | .array items fault => do
      let values ← items.mapM item
      orFault values fault
  | .deep _ => .error .malformed
  | other => .error other.mismatch

def optional {α : Type} (item : Document → Except Fault α) : Document → Except Fault (Option α)
  | .word .null fault => orFault none fault
  | other => (item other).map some

def ofName {α : Type} [Vocabulary α] (name : String) : Except Fault α :=
  match Vocabulary.ofName? name with
  | some member => .ok member
  | none => .error .misshapen

def bare {α : Type} [Vocabulary α] : Document → Except Fault α
  | .ordinal position =>
      match (Vocabulary.all : List α)[position]? with
      | some member => .ok member
      | none => .error .misshapen
  | other => do
      let name ← other.text
      ofName name

/-- A word of a vocabulary: its name, or an object whose only member has that name and the value
`null`. Anything that starts otherwise is refused by its first character. -/
def named {α : Type} [Vocabulary α] : Document → Except Fault α
  | .absent => .error .unfinished
  | .string reading => do
      let name ← reading.use
      ofName name
  | .object [] fault => .error (fault.getD .malformed)
  | .object ((name, value) :: rest) fault => do
      let name ← name.use
      let member ← ofName name
      value.nothing
      if rest.isEmpty then orFault member fault else .error .malformed
  | _ => .error .malformed

def read {α : Type} (item : Document → Except Fault α) (text : String) : Except Fault α := do
  let (document, rest) := ofText text
  let value ← item document
  match rest with
  | some rest => if (skipWhite rest).isEmpty then .ok value else .error .malformed
  | none => .error .malformed

end Document

class JsonFormat (α : Type) where
  encode : α → Json
  decode : Document → Except Fault α

namespace JsonFormat

def ofJson {α : Type} [JsonFormat α] (value : Json) : Except Fault α :=
  decode value.document

def ofText {α : Type} [JsonFormat α] (text : String) : Except Fault α :=
  Document.read decode text

instance : JsonFormat Json where
  encode value := value
  decode := Document.value

instance : JsonFormat Bool where
  encode := .boolean
  decode := Document.boolean

instance : JsonFormat String where
  encode := .string
  decode := Document.text

instance : JsonFormat Nat where
  encode := Json.natural
  decode := Document.natural

instance {α : Type} [JsonFormat α] : JsonFormat (List α) where
  encode values := .array (values.map encode)
  decode := Document.listOf decode

instance {α : Type} [JsonFormat α] : JsonFormat (Option α) where
  encode value := Json.orNull (value.map encode)
  decode := Document.optional decode

instance {α : Type} [Vocabulary α] : JsonFormat α where
  encode member := .string (Vocabulary.name member)
  decode := Document.named

end JsonFormat

end Agenda
