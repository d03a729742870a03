import Agenda.Json.Value
import Agenda.Number.Shortest
import Agenda.Text.Digit

/-!
The compact text of a JSON value, its canonical form with sorted members, and an indented text for
people.
-/

namespace Agenda

/-- How doubles are written: positional while the decimal point falls from four zeros after it up
to sixteen digits before it, otherwise with an exponent; a whole number keeps one zero after its
point. -/
structure DoubleFormat where
  mostBefore : Int
  mostZeros : Int

namespace JsonNumber

def doubleFormat : DoubleFormat := ⟨16, 4⟩

def exponentChars (exponent : Int) : List Char :=
  (if 0 ≤ exponent then ['+'] else []) ++ (toString exponent).toList

def decimalChars (format : DoubleFormat) (decimal : Decimal) : List Char :=
  let digits := decimal.digitText
  let point : Int := digits.length + decimal.exponent
  if decimal.digits = 0 then ['0', '.', '0']
  else if 0 ≤ decimal.exponent ∧ point ≤ format.mostBefore then
    digits ++ List.replicate decimal.exponent.toNat '0' ++ ['.', '0']
  else if 0 < point ∧ point ≤ format.mostBefore then
    digits.take point.toNat ++ '.' :: digits.drop point.toNat
  else if point ≤ 0 ∧ -format.mostZeros ≤ point then
    '0' :: '.' :: List.replicate (-point).toNat '0' ++ digits
  else
    let mantissa :=
      if digits.length = 1 then digits else digits.take 1 ++ '.' :: digits.drop 1
    mantissa ++ 'e' :: exponentChars (point - 1)

def chars : JsonNumber → List Char
  | .integer value => (toString value).toList
  | .double value =>
      (if value.negative then ['-'] else []) ++ decimalChars doubleFormat value.shortest

end JsonNumber

namespace Json

def escaped (character : Char) : List Char :=
  if character = '"' then ['\\', '"']
  else if character = '\\' then ['\\', '\\']
  else if character = '\n' then ['\\', 'n']
  else if character = '\r' then ['\\', 'r']
  else if character = '\t' then ['\\', 't']
  else if character = Char.ofNat 8 then ['\\', 'b']
  else if character = Char.ofNat 12 then ['\\', 'f']
  else if character.toNat < 32 then
    ['\\', 'u', '0', '0', Text.hexDigit (character.toNat / 16),
      Text.hexDigit (character.toNat % 16)]
  else [character]

def quoted (text : String) : List Char :=
  '"' :: (text.toList.flatMap escaped ++ ['"'])

mutual

def chars : Json → List Char
  | .null => ['n', 'u', 'l', 'l']
  | .boolean true => ['t', 'r', 'u', 'e']
  | .boolean false => ['f', 'a', 'l', 's', 'e']
  | .number value => value.chars
  | .string text => quoted text
  | .array items => '[' :: (itemChars items ++ [']'])
  | .object members => '{' :: (memberChars members ++ ['}'])

def itemChars : List Json → List Char
  | [] => []
  | item :: rest =>
      match rest with
      | [] => item.chars
      | _ :: _ => item.chars ++ ',' :: itemChars rest

def memberChars : List (String × Json) → List Char
  | [] => []
  | (name, value) :: rest =>
      match rest with
      | [] => quoted name ++ ':' :: value.chars
      | _ :: _ => quoted name ++ ':' :: (value.chars ++ ',' :: memberChars rest)

end

def text (value : Json) : String :=
  String.ofList value.chars

def sortMembers (members : List (String × Json)) : List (String × Json) :=
  members.mergeSort fun a b => decide (a.1 ≤ b.1)

mutual

/-- Members sorted by name at every depth; arrays keep their order. -/
def canonical : Json → Json
  | .array items => .array (canonicalItems items)
  | .object members => .object (sortMembers (canonicalMembers members))
  | .null => .null
  | .boolean value => .boolean value
  | .number value => .number value
  | .string text => .string text

def canonicalItems : List Json → List Json
  | [] => []
  | item :: rest => item.canonical :: canonicalItems rest

def canonicalMembers : List (String × Json) → List (String × Json)
  | [] => []
  | (name, value) :: rest => (name, value.canonical) :: canonicalMembers rest

end

def newLine (depth : Nat) : List Char :=
  '\n' :: List.replicate (2 * depth) ' '

mutual

def indentedChars (depth : Nat) : Json → List Char
  | .array [] => ['[', ']']
  | .array (item :: rest) =>
      '[' :: (indentedItems (depth + 1) (item :: rest) ++ newLine depth ++ [']'])
  | .object [] => ['{', '}']
  | .object (member :: rest) =>
      '{' :: (indentedMembers (depth + 1) (member :: rest) ++ newLine depth ++ ['}'])
  | .null => chars .null
  | .boolean value => chars (.boolean value)
  | .number value => chars (.number value)
  | .string text => chars (.string text)

def indentedItems (depth : Nat) : List Json → List Char
  | [] => []
  | item :: rest =>
      newLine depth ++ item.indentedChars depth ++
        (if rest.isEmpty then [] else [',']) ++ indentedItems depth rest

def indentedMembers (depth : Nat) : List (String × Json) → List Char
  | [] => []
  | (name, value) :: rest =>
      newLine depth ++ quoted name ++ ':' :: ' ' :: value.indentedChars depth ++
        (if rest.isEmpty then [] else [',']) ++ indentedMembers depth rest

end

def indentedText (value : Json) : String :=
  String.ofList (value.indentedChars 0)

end Json

end Agenda
