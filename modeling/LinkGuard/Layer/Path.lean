import LinkGuard.Keyed
import LinkGuard.Layer.Value

/-! # Paths into layers

The keys of a layer are paths into the table that the layers make together: a name, and then members
behind points and items in brackets. Setting a value at a path makes the tables and lists on the
way, if need be out of something else. Tables are merged; everything else takes the place of what
was there.
-/

namespace LinkGuard.Layer

/-- One step into a value. An index below zero counts back from the end. -/
inductive Step where
  | member (name : String)
  | item (index : Int)
deriving DecidableEq

namespace Path

/-! ## Reading -/

def isNameChar (c : Char) : Bool :=
  ('a' ≤ c && c ≤ 'z') || ('A' ≤ c && c ≤ 'Z') || ('0' ≤ c && c ≤ '9') || c = ' ' ||
    c = '_' || c = '-'

/-- The name at the front of a text, and the rest. -/
def name? (text : List Char) : Option (String × List Char) :=
  let name := text.takeWhile isNameChar
  if name.isEmpty then none else some (String.ofList name, text.dropWhile isNameChar)

/-- The index in front of a closing bracket, with blanks around it, and the rest. -/
def index? (text : List Char) : Option (Int × List Char) :=
  let isBlank (c : Char) := c = ' ' || c = '\t'
  let isMark (c : Char) := c = '-' || ('0' ≤ c && c ≤ '9')
  let text := text.dropWhile isBlank
  match (text.dropWhile isMark).dropWhile isBlank with
  | ']' :: rest => (Numeral.word? 10 (text.takeWhile isMark)).map fun n => (n, rest)
  | _ => none

def steps? : Nat → List Char → Option (List Step)
  | 0, _ => none
  | _, [] => some []
  | fuel + 1, '.' :: rest => do
    let (name, rest) ← name? rest
    return .member name :: (← steps? fuel rest)
  | fuel + 1, '[' :: rest => do
    let (index, rest) ← index? rest
    return .item index :: (← steps? fuel rest)
  | _, _ => none

/-- The path that a key stands for. A key that is no path is a name. -/
def ofKey (key : String) : List Step :=
  let read : Option (List Step) := do
    let (name, rest) ← name? key.toList
    return .member name :: (← steps? (rest.length + 1) rest)
  read.getD [.member key]

end Path

namespace Value

/-! ## Setting -/

def members : Value → List (String × Value)
  | table members => members
  | _ => []

def items : Value → List Value
  | list items => items
  | _ => []

mutual

/-- A table with a value under a name in lower case. -/
def put (name : String) : Value → Value → Value
  | table incoming, root =>
    let name := Text.lower name
    table (Keyed.put name (putAll incoming ((Keyed.find name root.members).getD (table [])))
      root.members)
  | other, root => table (Keyed.put (Text.lower name) other root.members)

def putAll : List (String × Value) → Value → Value
  | [], target => target
  | (name, v) :: rest, target => putAll rest (put name v target)

end

/-- The place in a list of that length that an index means. -/
def placeOf (index : Int) (length : Nat) : Option Nat :=
  match index with
  | .ofNat n => some n
  | .negSucc n => if n < length then some (length - (n + 1)) else none

/-- A list with `f` of the item at a place there; a list that is too short is filled up with
    nothing. -/
def modifyItem (index : Int) (f : Value → Option Value) (root : Value) : Option Value := do
  let place ← placeOf index root.items.length
  let filled := root.items ++ List.replicate (place + 1 - root.items.length) nil
  return list (filled.set place (← f (filled.getD place nil)))

/-- The value with `v` at the end of a path; `none` if an index counts back too far. -/
def setAt (v : Value) : List Step → Value → Option Value
  | [], _ => some v
  | [.member name], root => some (put name v root)
  | .member name :: rest, root => do
    let child ← setAt v rest ((Keyed.find name root.members).getD nil)
    return table (Keyed.put name child root.members)
  | .item index :: rest, root => modifyItem index (setAt v rest) root

/-- Lays the members of a layer upon a value, one after the other. -/
def lay : List (String × Value) → Value → Except Fault Value
  | [], root => .ok root
  | (key, v) :: rest, root =>
    match setAt v (Path.ofKey key) root with
    | none => .error .strangeKey
    | some root => lay rest root

end Value

end LinkGuard.Layer
