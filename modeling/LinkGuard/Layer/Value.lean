import LinkGuard.Decimal.Binary64
import LinkGuard.Settings.Reading
import LinkGuard.Text.Case

/-! # Values of layers

The layers that settings are put together from are tables of values. What a value is has been
guessed from how it is written, so the reader is generous: a text stands for a number if it reads
like one, and a number for a text.
-/

namespace LinkGuard.Layer

inductive Value where
  | nil
  | bool (b : Bool)
  | integer (n : Int)
  | real (x : Binary64)
  | text (s : String)
  | list (items : List Value)
  | table (members : List (String × Value))

namespace Value

def compound? : Value → Option (Compound Value)
  | table members => some (.table members)
  | list items => some (.row items)
  | _ => none

def text? : Value → Option String
  | text s => some s
  | bool b => some (if b then "true" else "false")
  | integer n => some (Numeral.ofInt n)
  | real x => some x.text
  | _ => none

def optionalText? : Value → Option (Option String)
  | nil => some none
  | v => v.text?.map some

def texts? : Value → Option (List String)
  | list items => items.mapM text?
  | _ => none

/-- The number that a text stands for. -/
def textNumber? (s : String) : Option Nat :=
  match Text.lower s with
  | "true" | "on" | "yes" => some 1
  | "false" | "off" | "no" => some 0
  | _ => Numeral.unsigned? 10 s.toList

/-- The whole number that a value stands for. -/
def number? : Value → Option Nat
  | bool b => some b.toNat
  | integer (.ofNat n) => some n
  | real x => some x.toWord
  | text s => textNumber? s
  | _ => none

def below? (bound : Nat) (v : Value) : Option Nat := v.number?.filter (· < bound)

/-- A choice is its name, or a table with that name as its only key. -/
def backend? : Value → Option Backend
  | text word => Backend.ofName? (Text.lower word)
  | table [(word, _)] => Backend.ofName? (Text.lower word)
  | _ => none

def reading : Reading Value where
  compound := compound?
  closedRows := false
  text := text?
  text? := optionalText?
  texts := texts?
  below := below?
  backend := backend?

end Value

inductive Fault where
  /-- A layer cannot be read. -/
  | unreadable
  /-- A key is neither a text nor a whole number, or counts back beyond the start of a list. -/
  | strangeKey
deriving DecidableEq

end LinkGuard.Layer
