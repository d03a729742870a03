/-!
Options on a command line: `--name value`, `--name=value`, `-n value`, `-nvalue`, `-n=value`, and
options without a value, whose letters can be joined. Every option is given at most once, and
nothing but options is given.
-/

namespace Agenda

structure OptionForm (κ : Type) where
  key : κ
  long : String
  letter : Option Char := none
  takesValue : Bool := true

inductive ArgumentFault where
  | unexpected (argument : String)
  | missingValue (option : String)
  | unwantedValue (option : String)
  | repeated (option : String)
deriving DecidableEq, Repr

structure OptionReading (κ : Type) where
  found : List (κ × String) := []
  pending : Option (OptionForm κ) := none

namespace OptionReading

variable {κ : Type} [DecidableEq κ]

def add (form : OptionForm κ) (value : String) (reading : OptionReading κ) :
    Except ArgumentFault (OptionReading κ) :=
  if reading.found.any fun option => option.1 = form.key then .error (.repeated form.long)
  else .ok ⟨reading.found ++ [(form.key, value)], none⟩

/-- Letters after one hyphen. The first option that takes a value takes the rest. -/
def addLetters (forms : List (OptionForm κ)) :
    List Char → OptionReading κ → Except ArgumentFault (OptionReading κ)
  | [], reading => .ok reading
  | letter :: rest, reading =>
      match forms.find? fun form => form.letter = some letter with
      | none => .error (.unexpected (String.ofList ['-', letter]))
      | some form =>
          if form.takesValue then
            match rest with
            | [] => .ok { reading with pending := some form }
            | '=' :: value => reading.add form (String.ofList value)
            | value => reading.add form (String.ofList value)
          else do
            let reading ← reading.add form ""
            addLetters forms rest reading

def addLong (forms : List (OptionForm κ)) (text : List Char) (reading : OptionReading κ) :
    Except ArgumentFault (OptionReading κ) :=
  let name := String.ofList (text.takeWhile (· ≠ '='))
  match forms.find? fun form => form.long = name, text.dropWhile (· ≠ '=') with
  | none, _ => .error (.unexpected name)
  | some form, [] =>
      if form.takesValue then .ok { reading with pending := some form }
      else reading.add form ""
  | some form, _ :: value =>
      if form.takesValue then reading.add form (String.ofList value)
      else .error (.unwantedValue form.long)

def isHyphened (text : List Char) : Bool :=
  match text with
  | '-' :: _ :: _ => true
  | _ => false

/-- The arguments that are left, one after the other. Two hyphens alone end the options. -/
def readFrom (forms : List (OptionForm κ)) :
    List String → OptionReading κ → Except ArgumentFault (List (κ × String))
  | [], reading =>
      match reading.pending with
      | some form => .error (.missingValue form.long)
      | none => .ok reading.found
  | argument :: rest, reading =>
      match reading.pending, argument.toList with
      | some form, text =>
          if isHyphened text then .error (.missingValue form.long)
          else do
            let reading ← reading.add form argument
            readFrom forms rest reading
      | none, ['-', '-'] =>
          match rest with
          | [] => .ok reading.found
          | next :: _ => .error (.unexpected next)
      | none, '-' :: '-' :: text => do
          let reading ← reading.addLong forms text
          readFrom forms rest reading
      | none, '-' :: letter :: letters => do
          let reading ← reading.addLetters forms (letter :: letters)
          readFrom forms rest reading
      | none, _ => .error (.unexpected argument)

end OptionReading

def readOptions {κ : Type} [DecidableEq κ] (forms : List (OptionForm κ))
    (arguments : List String) : Except ArgumentFault (List (κ × String)) :=
  OptionReading.readFrom forms arguments {}

end Agenda
