import Agenda.Text.Digit

/-!
Texts in quotation marks. A backslash starts an escape: a letter for a control character, or the
hexadecimal code of any character.
-/

namespace Agenda.Text

def unescape? (letter : Char) : Option Char :=
  match letter with
  | 'b' => some (Char.ofNat 8)
  | 'f' => some (Char.ofNat 12)
  | 'n' => some '\n'
  | 'r' => some '\r'
  | 't' => some '\t'
  | '"' => some '"'
  | '\\' => some '\\'
  | _ => none

def ofHexCode? (digits : List Char) : Option Char :=
  match readHex? digits with
  | some code => if code.isValidChar then some (Char.ofNat code) else none
  | none => none

/-- Whether a character may stand for itself between quotation marks: of the control characters
of ASCII only the tab may. -/
def isQuotable (character : Char) : Bool :=
  character == '\t' || (32 ≤ character.toNat && character.toNat != 127)

def readQuoted? : List Char → Option (List Char × List Char)
  | [] => none
  | '"' :: rest => some ([], rest)
  | '\\' :: 'u' :: a :: b :: c :: d :: rest => do
      let character ← ofHexCode? [a, b, c, d]
      let (text, after) ← readQuoted? rest
      some (character :: text, after)
  | '\\' :: 'U' :: a :: b :: c :: d :: e :: f :: g :: h :: rest => do
      let character ← ofHexCode? [a, b, c, d, e, f, g, h]
      let (text, after) ← readQuoted? rest
      some (character :: text, after)
  | '\\' :: letter :: rest => do
      let character ← unescape? letter
      let (text, after) ← readQuoted? rest
      some (character :: text, after)
  | character :: rest =>
      if isQuotable character then do
        let (text, after) ← readQuoted? rest
        some (character :: text, after)
      else none

end Agenda.Text
