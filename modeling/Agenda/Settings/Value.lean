/-!
Values of settings before a setting takes them: a truth value, a number, a text. A list or a table
is a value too, but no setting takes one.
-/

namespace Agenda

inductive SettingValue where
  | truth (value : Bool)
  | number (value : Int)
  | fraction
  /-- A number with a decimal point beyond the greatest double; it counts as no value. -/
  | unset
  | text (value : String)
  | compound
deriving DecidableEq, Repr

namespace SettingValue

def truth? : SettingValue → Option Bool
  | .truth value => some value
  | _ => none

def count? : SettingValue → Option Nat
  | .number value => if 0 ≤ value then some value.toNat else none
  | _ => none

def text? : SettingValue → Option String
  | .text value => some value
  | _ => none

end SettingValue

end Agenda
