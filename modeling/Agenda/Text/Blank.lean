/-!
Blank characters: the Unicode property `White_Space`, and the cuts that messages, cache keys and
date-times make with it.
-/

namespace Agenda.Text

/-- A character is blank when it has the Unicode property `White_Space`. -/
def isBlank (character : Char) : Bool :=
  let code := character.toNat
  (0x09 ≤ code && code ≤ 0x0D) || code == 0x20 || code == 0x85 || code == 0xA0 ||
    code == 0x1680 || (0x2000 ≤ code && code ≤ 0x200A) || code == 0x2028 || code == 0x2029 ||
    code == 0x202F || code == 0x205F || code == 0x3000

def skipBlanks (text : List Char) : List Char :=
  text.dropWhile isBlank

def trim (text : String) : String :=
  String.ofList (skipBlanks (skipBlanks text.toList).reverse).reverse

def isBlankText (text : String) : Bool :=
  text.toList.all isBlank

def isTrimmed (text : String) : Bool :=
  trim text == text

end Agenda.Text
