import Agenda.Number.Decimal
import Agenda.Settings.Value
import Agenda.Text.Blank
import Agenda.Text.Quoted

/-!
Values as variables of the environment hold them. A value is a truth value in any case of letters,
a list in square brackets, a table in curly ones, a text in quotation marks, a character in
apostrophes, or plain text, which may read as a number. A variable that is no such value from end
to end is a text as it stands.
-/

namespace Agenda

namespace SettingValue

def isPadding (character : Char) : Bool :=
  character == ' ' || character == '\t' || character == '\n' || character == '\r' ||
    character == Char.ofNat 12

def skipPadding (text : List Char) : List Char :=
  text.dropWhile isPadding

def isSeparator (character : Char) : Bool :=
  character == ',' || character == '[' || character == ']' || character == '\x7b' ||
    character == '\x7d'

def isOpening (character : Char) : Bool :=
  character == '[' || character == '\x7b' || character == '"' || character == '\''

def isNameCharacter (character : Char) : Bool :=
  character.isAlphanum || character == '_' || character == '-'

def readTruth? (text : List Char) : Option (Bool × List Char) :=
  if (text.take 4).map Char.toLower = ['t', 'r', 'u', 'e'] then some (true, text.drop 4)
  else if (text.take 5).map Char.toLower = ['f', 'a', 'l', 's', 'e'] then
    some (false, text.drop 5)
  else none

def ofPlain (text : String) : SettingValue :=
  match Decimal.ofPointed? text.toList, Text.readInteger? text.toList with
  | some decimal, _ => if decimal.isBeyondDoubles then .unset else .fraction
  | none, some value =>
      if -9223372036854775808 ≤ value ∧ value ≤ Text.greatestWord then .number value
      else .text text
  | none, none => .text text

def readName? (text : List Char) : Option (List Char × List Char) :=
  match text with
  | '"' :: rest => Text.readQuoted? rest
  | plain =>
      let name := plain.takeWhile isNameCharacter
      if name.isEmpty then none else some (name, plain.dropWhile isNameCharacter)

mutual

def readValue? : Nat → List Char → Option (SettingValue × List Char)
  | 0, _ => none
  | fuel + 1, input => do
      let unpadded := skipPadding input
      let (value, rest) ←
        match readTruth? unpadded, unpadded with
        | some (value, rest), _ => some (.truth value, rest)
        | none, '[' :: rest => (readItems? fuel rest).map fun after => (.compound, after)
        | none, '\x7b' :: rest => (readEntries? fuel rest).map fun after => (.compound, after)
        | none, '"' :: rest =>
            (Text.readQuoted? rest).map fun (inner, after) => (.text (String.ofList inner), after)
        | none, '\'' :: character :: '\'' :: rest =>
            some (.text (String.singleton character), rest)
        | none, '\'' :: _ => none
        | none, plain =>
            some (ofPlain (Text.trim (String.ofList (plain.takeWhile (!isSeparator ·)))),
              plain.dropWhile (!isSeparator ·))
      some (value, skipPadding rest)

def readItems? : Nat → List Char → Option (List Char)
  | 0, _ => none
  | _ + 1, ']' :: rest => some rest
  | fuel + 1, input => do
      let (_, rest) ← readValue? fuel input
      match rest with
      | ',' :: rest => readItems? fuel rest
      | ']' :: rest => some rest
      | _ => none

def readEntries? : Nat → List Char → Option (List Char)
  | 0, _ => none
  | _ + 1, '\x7d' :: rest => some rest
  | fuel + 1, input => do
      let (_, afterName) ← readName? (skipPadding input)
      match skipPadding afterName with
      | '=' :: valueText =>
          let (_, rest) ← readValue? fuel valueText
          match rest with
          | ',' :: rest => readEntries? fuel rest
          | '\x7d' :: rest => some rest
          | _ => none
      | _ => none

end

/-- The value in the text of a variable. Plain text with a comma is a list. Of two nested calls of
the reader at least one takes a character. -/
def ofVariable (content : String) : SettingValue :=
  let trimmed := (Text.trim content).toList
  if !(trimmed.head?.any isOpening) && trimmed.contains ',' then .compound
  else
    match readValue? (2 * trimmed.length + 2) trimmed with
    | some (value, []) => value
    | _ => .text (String.ofList trimmed)

end SettingValue

end Agenda
