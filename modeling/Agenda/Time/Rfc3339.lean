import Agenda.Json.Format
import Agenda.Text.Blank
import Agenda.Text.Digit
import Agenda.Time.Instant

/-!
RFC 3339 text of instants. Written in universal time with the fewest of 0, 3, 6 or 9 fraction
digits that lose nothing. Read with some freedom: blanks before numbers, marks and offset, short
numbers, a space or either case of `T` between date and time, `UTC` or `Z` or an offset whose colon
may be missing.
-/

namespace Agenda

namespace Rfc3339

def yearChars (year : Int) : List Char :=
  let digits := Text.padded 4 year.natAbs
  if year < 0 then '-' :: digits
  else if 9999 < year then '+' :: digits
  else digits

def fractionChars (nano : Nat) : List Char :=
  if nano = 0 then []
  else if nano % 1000000 = 0 then '.' :: Text.padded 3 (nano / 1000000)
  else if nano % 1000 = 0 then '.' :: Text.padded 6 (nano / 1000)
  else '.' :: Text.padded 9 nano

def dateChars (date : Date) : List Char :=
  yearChars date.year ++ '-' :: (Text.padded 2 date.month ++ '-' :: Text.padded 2 date.day)

def timeChars (instant : Instant) : List Char :=
  let second := instant.second % 60 + (if instant.isLeapSecond then 1 else 0)
  Text.padded 2 (instant.second / 3600) ++ ':' :: (Text.padded 2 (instant.second / 60 % 60) ++
    ':' :: (Text.padded 2 second ++ fractionChars (instant.nano % 1000000000)))

def chars (instant : Instant) : List Char :=
  dateChars instant.date ++ 'T' :: (timeChars instant ++ ['Z'])

def readDigits (most : Nat) (text : List Char) : Option (List Char × List Char) :=
  let digits := (text.take most).takeWhile Text.isDigit
  if digits.isEmpty then none else some (digits, text.drop digits.length)

def readShort (text : List Char) : Option (Nat × List Char) := do
  let (digits, rest) ← readDigits 2 (Text.skipBlanks text)
  some (Text.digitsValue digits, rest)

def readYear (text : List Char) : Option (Int × List Char) :=
  match Text.skipBlanks text with
  | '-' :: rest => do
      let (digits, rest) ← readDigits rest.length rest
      some (-(Text.digitsValue digits : Int), rest)
  | '+' :: rest => do
      let (digits, rest) ← readDigits rest.length rest
      some (Text.digitsValue digits, rest)
  | unsigned => do
      let (digits, rest) ← readDigits 4 unsigned
      some (Text.digitsValue digits, rest)

def readMark (mark : Char) (text : List Char) : Option (List Char) :=
  match Text.skipBlanks text with
  | character :: rest => if character = mark then some rest else none
  | [] => none

def readFraction (text : List Char) : Option (Nat × List Char) :=
  match text with
  | '.' :: rest => do
      let (digits, rest) ← readDigits 9 rest
      some (Text.digitsValue digits * Nat.pow 10 (9 - digits.length), rest.dropWhile Text.isDigit)
  | _ => some (0, text)

def readDate (text : List Char) : Option (Date × List Char) := do
  let (year, text) ← readYear text
  let text ← readMark '-' text
  let (month, text) ← readShort text
  let text ← readMark '-' text
  let (day, text) ← readShort text
  let date ← Date.of? year month day
  some (date, text)

/-- A time of day. The second 60 is a leap second after the second 59. -/
def readTime (text : List Char) : Option ((Nat × Nat) × List Char) := do
  let (hour, text) ← readShort text
  let text ← readMark ':' text
  let (minute, text) ← readShort text
  let text ← readMark ':' text
  let (second, text) ← readShort text
  let (nano, text) ← readFraction text
  if hour < 24 ∧ minute < 60 ∧ second ≤ 60 then
    let leap := if second = 60 then 1 else 0
    some (((hour * 60 + minute) * 60 + second - leap, nano + leap * 1000000000), text)
  else none

def readPair (text : List Char) : Option (Nat × List Char) :=
  match text with
  | a :: b :: rest =>
      if Text.isDigit a ∧ Text.isDigit b then some (Text.digitsValue [a, b], rest) else none
  | _ => none

def readOffset (text : List Char) : Option (Int × List Char) :=
  let signed (sign : Int) (rest : List Char) : Option (Int × List Char) := do
    let (hours, rest) ← readPair rest
    let (minutes, rest) ← readPair
      (rest.dropWhile fun character => character == ':' || Text.isBlank character)
    if hours < 24 ∧ minutes < 60 then some (sign * (hours * 3600 + minutes * 60 : Nat), rest)
    else none
  match Text.skipBlanks text with
  | a :: rest =>
      if a = 'Z' ∨ a = 'z' then some (0, rest)
      else if a = '+' then signed 1 rest
      else if a = '-' ∨ a = '−' then signed (-1) rest
      else
        match a, rest with
        | a, b :: c :: rest =>
            if (a = 'U' ∨ a = 'u') ∧ (b = 'T' ∨ b = 't') ∧ (c = 'C' ∨ c = 'c') then
              some (0, rest)
            else none
        | _, _ => none
  | [] => none

def toUniversal (date : Date) (second nano : Nat) (offset : Int) : Option Instant := do
  let universal := (second : Int) - offset
  let date ← date.addDays? (universal / 86400)
  Instant.of? date (universal % 86400).toNat nano

def read (text : List Char) : Option Instant := do
  let (date, text) ← readDate text
  let text ← match text with
    | mark :: rest => if mark = 'T' ∨ mark = 't' ∨ mark = ' ' then some rest else none
    | [] => none
  let ((second, nano), text) ← readTime text
  let (offset, text) ← readOffset text
  if (Text.skipBlanks text).isEmpty then toUniversal date second nano offset else none

end Rfc3339

namespace Instant

def text (instant : Instant) : String :=
  String.ofList (Rfc3339.chars instant)

def ofText? (text : String) : Option Instant :=
  Rfc3339.read text.toList

instance : JsonFormat Instant where
  encode instant := .string instant.text
  decode document := do
    let text ← document.text
    match ofText? text with
    | some instant => .ok instant
    | none => .error .misshapen

end Instant

end Agenda
