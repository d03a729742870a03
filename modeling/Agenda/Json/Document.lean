import Agenda.Json.Value
import Agenda.Text.Digit

/-!
A JSON text as far as it can be read. A `Document` is the tree of the text up to its first fault;
what is wrong with the text is a leaf of the tree, so a reader that walks the tree from left to
right meets the fault exactly where the text has it, after everything that stands before it.
-/

namespace Agenda

inductive Fault where
  | misshapen
  | malformed
  | unfinished
deriving DecidableEq, Repr

/-- A literal as its text was read. A broken one has the fault that its use meets and, when the
text cannot be read beyond it, the fault that skipping it meets. -/
inductive Reading (α : Type) where
  | whole (value : α)
  | broken (used : Fault) (skipped : Option Fault)
deriving Repr

namespace Reading

def use {α : Type} : Reading α → Except Fault α
  | .whole value => .ok value
  | .broken used _ => .error used

def skip {α : Type} : Reading α → Except Fault Unit
  | .whole _ => .ok ()
  | .broken _ none => .ok ()
  | .broken _ (some fault) => .error fault

end Reading

inductive JsonWord where
  | null
  | yes
  | no
deriving DecidableEq, Repr

namespace JsonWord

def letters : JsonWord → List Char
  | .null => ['n', 'u', 'l', 'l']
  | .yes => ['t', 'r', 'u', 'e']
  | .no => ['f', 'a', 'l', 's', 'e']

end JsonWord

/-- The tree of a JSON text up to its first fault. -/
inductive Document where
  | absent
  | stray
  | word (word : JsonWord) (fault : Option Fault)
  | number (reading : Reading JsonNumber)
  | string (reading : Reading String)
  | array (items : List Document) (fault : Option Fault)
  | object (members : List (Reading String × Document)) (fault : Option Fault)
  | unnamed
  | deep (inner : Document)
  /-- An empty object inside a value that was kept until its shape is known. Where nothing but
  `null` may stand it passes for `null`. -/
  | hollow
  /-- A whole number that is not negative, inside a value that was kept until its shape is known.
  At the head of a tagged array it passes for the case of that position. -/
  | ordinal (value : Nat)
deriving Repr

namespace Document

def depthLimit : Nat := 128

def isWhite (character : Char) : Bool :=
  character == ' ' || character == '\n' || character == '\t' || character == '\r'

def skipWhite (text : List Char) : List Char :=
  text.dropWhile isWhite

def readWord : List Char → List Char → Except Fault (List Char)
  | [], text => .ok text
  | _ :: _, [] => .error .unfinished
  | letter :: letters, character :: text =>
      if character = letter then readWord letters text else .error .malformed

def readHex (text : List Char) : Except Fault (Nat × List Char) :=
  if (String.ofList (text.take 4)).utf8ByteSize < 4 then .error .unfinished
  else
    match text with
    | a :: b :: c :: d :: rest =>
        match Text.readHex? [a, b, c, d] with
        | some code => .ok (code, rest)
        | none => .error .malformed
    | _ => .error .malformed

def isHighSurrogate (code : Nat) : Bool :=
  0xD800 ≤ code && code ≤ 0xDBFF

def isLowSurrogate (code : Nat) : Bool :=
  0xDC00 ≤ code && code ≤ 0xDFFF

/-- The second half of a surrogate pair, if it follows, with the text after it. A text that breaks
off or goes wrong inside the second escape is faulty however the string is used. -/
def readLowSurrogate : List Char → Except Fault (Option (Nat × List Char))
  | [] => .error .unfinished
  | ['\\'] => .error .unfinished
  | '\\' :: 'u' :: rest =>
      match readHex rest with
      | .error fault => .error fault
      | .ok (code, after) => .ok (if isLowSurrogate code then some (code, after) else none)
  | _ => .ok none

def readEscape : List Char → Except Fault (Option Char × List Char)
  | [] => .error .unfinished
  | '"' :: rest => .ok (some '"', rest)
  | '\\' :: rest => .ok (some '\\', rest)
  | '/' :: rest => .ok (some '/', rest)
  | 'b' :: rest => .ok (some (Char.ofNat 8), rest)
  | 'f' :: rest => .ok (some (Char.ofNat 12), rest)
  | 'n' :: rest => .ok (some '\n', rest)
  | 'r' :: rest => .ok (some '\r', rest)
  | 't' :: rest => .ok (some '\t', rest)
  | 'u' :: rest =>
      match readHex rest with
      | .error fault => .error fault
      | .ok (code, after) =>
          if isHighSurrogate code then
            match readLowSurrogate after with
            | .error fault => .error fault
            | .ok (some (low, afterPair)) =>
                .ok (some (Char.ofNat ((code - 0xD800) * 1024 + (low - 0xDC00) + 0x10000)),
                  afterPair)
            | .ok none => .ok (none, after)
          else if isLowSurrogate code then .ok (none, after)
          else .ok (some (Char.ofNat code), after)
  | _ :: _ => .error .malformed

/-- The rest of a quoted string. `sound` tells that no lone half of a surrogate pair stands before;
with one, a use of the string meets a malformed text there, before any later fault. -/
def readQuoted : Nat → List Char → Bool → List Char → Reading String × Option (List Char)
  | 0, _, _, _ => (.broken .unfinished (some .unfinished), none)
  | fuel + 1, done, sound, text =>
      let stop (fault : Fault) : Reading String × Option (List Char) :=
        (.broken (if sound then fault else .malformed) (some fault), none)
      match text with
      | [] => stop .unfinished
      | '"' :: rest =>
          if sound then (.whole (String.ofList done.reverse), some rest)
          else (.broken .malformed none, some rest)
      | '\\' :: rest =>
          match readEscape rest with
          | .error fault => stop fault
          | .ok (some character, after) => readQuoted fuel (character :: done) sound after
          | .ok (none, after) => readQuoted fuel done false after
      | character :: rest =>
          if character.toNat < 32 then stop .malformed
          else readQuoted fuel (character :: done) sound rest

def significandLimit : Nat := 18446744073709551615

def takeDigits (significand : Nat) : List Char → Nat × List Char
  | [] => (significand, [])
  | digit :: rest =>
      let grown := significand * 10 + Text.digitValue digit
      if grown ≤ significandLimit then takeDigits grown rest else (significand, digit :: rest)

structure Numeral where
  negative : Bool
  whole : List Char
  fraction : Option (List Char)
  exponent : Option Int

namespace Numeral

/-- The number that a numeral stands for. Digits beyond 64 bits before the point count as powers
of ten, and those after the point are dropped. -/
def value? (numeral : Numeral) : Option JsonNumber :=
  let (leading, beyond) := takeDigits 0 numeral.whole
  let (significand, dropped) := takeDigits leading (numeral.fraction.getD [])
  let taken : Int := (numeral.fraction.getD []).length - dropped.length
  let isInteger := numeral.fraction.isNone && numeral.exponent.isNone && beyond.isEmpty
  if isInteger && !numeral.negative then some (.integer leading)
  else if isInteger && 1 ≤ leading && leading ≤ 9223372036854775808 then
    some (.integer (-(leading : Int)))
  else
    (Binary64.ofDigits? numeral.negative significand
      (beyond.length - taken + numeral.exponent.getD 0)).map .double

end Numeral

def missingDigit (text : List Char) : Reading JsonNumber × Option (List Char) :=
  (.broken (if text.isEmpty then .unfinished else .malformed) (some .malformed), none)

def finishNumber (numeral : Numeral) (rest : List Char) :
    Reading JsonNumber × Option (List Char) :=
  match numeral.value? with
  | some value => (.whole value, some rest)
  | none => (.broken .malformed none, some rest)

def readExponent (negative : Bool) (whole : List Char) (fraction : Option (List Char))
    (text : List Char) : Reading JsonNumber × Option (List Char) :=
  match text with
  | mark :: rest =>
      if mark = 'e' ∨ mark = 'E' then
        let sign := rest.head?
        let unsigned := if sign = some '+' ∨ sign = some '-' then rest.tail else rest
        let digits := unsigned.takeWhile Text.isDigit
        if digits.isEmpty then missingDigit unsigned
        else
          let size : Int := Text.digitsValue digits
          finishNumber
            ⟨negative, whole, fraction, some (if sign = some '-' then -size else size)⟩
            (unsigned.dropWhile Text.isDigit)
      else finishNumber ⟨negative, whole, fraction, none⟩ text
  | [] => finishNumber ⟨negative, whole, fraction, none⟩ text

def readNumber (text : List Char) : Reading JsonNumber × Option (List Char) :=
  let negative := text.head? == some '-'
  let unsigned := if negative then text.tail else text
  let whole := unsigned.takeWhile Text.isDigit
  let rest := unsigned.dropWhile Text.isDigit
  if whole.isEmpty then missingDigit unsigned
  else if whole.head? == some '0' && whole.length != 1 then
    (.broken .malformed (some .malformed), none)
  else
    match rest with
    | '.' :: after =>
        let fraction := after.takeWhile Text.isDigit
        if fraction.isEmpty then missingDigit after
        else readExponent negative whole (some fraction) (after.dropWhile Text.isDigit)
    | _ => readExponent negative whole none rest

def nested (depth : Nat) (container : Document) : Document :=
  if depthLimit ≤ depth + 1 then .deep container else container

def readKeyword (word : JsonWord) (text : List Char) : Document × Option (List Char) :=
  match readWord word.letters text with
  | .ok rest => (.word word none, some rest)
  | .error fault => (.word word (some fault), none)

mutual

/-- One value and the text after it; no text is left after a fault that reading cannot pass. -/
def readValue : Nat → Nat → List Char → Document × Option (List Char)
  | 0, _, _ => (.absent, none)
  | fuel + 1, depth, text =>
      match skipWhite text with
      | [] => (.absent, none)
      | '"' :: rest =>
          let (reading, after) := readQuoted fuel [] true rest
          (.string reading, after)
      | '[' :: rest =>
          let (items, fault, after) := readItems fuel (depth + 1) true rest
          (nested depth (.array items fault), after)
      | '{' :: rest =>
          match skipWhite rest with
          | [] => (nested depth (.object [] (some .unfinished)), none)
          | '}' :: after => (nested depth (.object [] none), some after)
          | '"' :: named =>
              let (members, fault, after) := readMember fuel (depth + 1) named
              (nested depth (.object members fault), after)
          | _ => (nested depth .unnamed, none)
      | character :: rest =>
          if character = 'n' then readKeyword .null (character :: rest)
          else if character = 't' then readKeyword .yes (character :: rest)
          else if character = 'f' then readKeyword .no (character :: rest)
          else if character = '-' ∨ Text.isDigit character then
            let (reading, after) := readNumber (character :: rest)
            (.number reading, after)
          else (.stray, none)

def readItems : Nat → Nat → Bool → List Char →
    List Document × Option Fault × Option (List Char)
  | 0, _, _, _ => ([], some .unfinished, none)
  | fuel + 1, depth, isFirst, text =>
      match skipWhite text with
      | [] => ([], some .unfinished, none)
      | ']' :: rest => ([], none, some rest)
      | character :: rest =>
          if isFirst then readItem fuel depth (character :: rest)
          else if character = ',' then
            match skipWhite rest with
            | ']' :: _ => ([.stray], some .malformed, none)
            | next => readItem fuel depth next
          else ([], some .malformed, none)

def readItem : Nat → Nat → List Char → List Document × Option Fault × Option (List Char)
  | 0, _, _ => ([], some .unfinished, none)
  | fuel + 1, depth, text =>
      match readValue fuel depth text with
      | (item, none) => ([item], some .malformed, none)
      | (item, some rest) =>
          let (items, fault, after) := readItems fuel depth false rest
          (item :: items, fault, after)

def readMember : Nat → Nat → List Char →
    List (Reading String × Document) × Option Fault × Option (List Char)
  | 0, _, _ => ([], some .unfinished, none)
  | fuel + 1, depth, text =>
      match readQuoted fuel [] true text with
      | (name, none) => ([(name, .absent)], some .malformed, none)
      | (name, some afterName) =>
          match skipWhite afterName with
          | [] => ([(name, .absent)], some .unfinished, none)
          | ':' :: valueText =>
              match readValue fuel depth valueText with
              | (value, none) => ([(name, value)], some .malformed, none)
              | (value, some rest) =>
                  let (members, fault, after) := readMembers fuel depth rest
                  ((name, value) :: members, fault, after)
          | _ :: _ => ([(name, .stray)], some .malformed, none)

def readMembers : Nat → Nat → List Char →
    List (Reading String × Document) × Option Fault × Option (List Char)
  | 0, _, _ => ([], some .unfinished, none)
  | fuel + 1, depth, text =>
      match skipWhite text with
      | [] => ([], some .unfinished, none)
      | '}' :: rest => ([], none, some rest)
      | ',' :: rest =>
          match skipWhite rest with
          | [] => ([(.broken .unfinished (some .unfinished), .absent)], some .unfinished, none)
          | '"' :: named => readMember fuel depth named
          | _ :: _ => ([], some .malformed, none)
      | _ :: _ => ([], some .malformed, none)

end

/-- The value that a text starts with, and the text after it. Every two nested calls of the reader
take at least one character, so there is always more fuel left than there are characters. -/
def ofText (text : String) : Document × Option (List Char) :=
  readValue (4 * text.toList.length + 4) 0 text.toList

end Document

mutual

def Json.document : Json → Document
  | .null => .word .null none
  | .boolean true => .word .yes none
  | .boolean false => .word .no none
  | .number value => .number (.whole value)
  | .string text => .string (.whole text)
  | .array items => .array (Json.itemDocuments items) none
  | .object members => .object (Json.memberDocuments members) none

def Json.itemDocuments : List Json → List Document
  | [] => []
  | item :: rest => item.document :: Json.itemDocuments rest

def Json.memberDocuments : List (String × Json) → List (Reading String × Document)
  | [] => []
  | (name, value) :: rest => (.whole name, value.document) :: Json.memberDocuments rest

end

end Agenda
