import LinkGuard.Keyed
import LinkGuard.Layer.Value
import LinkGuard.Yaml.Document

/-! # Data of documents

A document says what its scalars are by how they are written: without quotes and tags, a scalar that
reads like a number, a truth value or nothing is one, and any other is a text. Keys are data too,
and no key may come twice.
-/

namespace LinkGuard.Layer

inductive Datum where
  | nil
  /-- A scalar that is not what its tag says, or the alias of a node around it. -/
  | broken
  | bool (b : Bool)
  | integer (n : Int)
  /-- A number with a point or an exponent, as it is written. -/
  | real (text : String)
  | text (s : String)
  | list (items : List Datum)
  | table (pairs : List (Datum × Datum))

namespace Datum

/-! ## Scalars -/

/-- The numbers that have a mark in front: of base sixteen, of base eight, or that they are
    positive. -/
def marked? : List Char → Option Int
  | '0' :: 'x' :: rest => Numeral.word? 16 rest
  | '0' :: 'o' :: rest => Numeral.word? 8 rest
  | '+' :: rest => Numeral.word? 10 rest
  | _ => none

/-- Whether a scalar reads like a number with a point or an exponent. A word for infinity or for no
number begins with a point. -/
def isReal (s : String) : Bool :=
  [".inf", ".Inf", ".INF", "+.inf", "+.Inf", "+.INF", "-.inf", "-.Inf", "-.INF", ".nan", ".NaN",
    ".NAN"].contains s ||
    (s.toList.any (fun c => '0' ≤ c && c ≤ '9') && (Binary64.parse? s.toList).isSome)

def bool? (s : String) : Option Bool :=
  if s = "true" then some true else if s = "false" then some false else none

def isNil (s : String) : Bool := s = "~" || s = "null"

def guess (s : String) : Datum :=
  match marked? s.toList with
  | some n => integer n
  | none =>
    if isNil s then nil
    else match bool? s with
      | some b => bool b
      | none =>
        match Numeral.word? 10 s.toList with
        | some n => integer n
        | none => if isReal s then real s else text s

/-- A scalar under a tag of the language. -/
def tagged (name s : String) : Datum :=
  match name with
  | "bool" => ((bool? s).map bool).getD broken
  | "int" => ((Numeral.word? 10 s.toList).map integer).getD broken
  | "float" => if isReal s then real s else broken
  | "null" => if isNil s then nil else broken
  | _ => text s

def ofScalar (style : Yaml.Style) (tag : Option Yaml.Tag) (s : String) : Datum :=
  match style, tag with
  | .plain, none => guess s
  | .plain, some tag => if tag.stem = Yaml.Tag.languageStem then tagged tag.suffix s else text s
  | _, _ => text s

/-! ## Equality -/

mutual

def same : Datum → Datum → Bool
  | nil, nil => true
  | broken, broken => true
  | bool a, bool b => a = b
  | integer a, integer b => a = b
  | real a, real b => a = b
  | text a, text b => a = b
  | list a, list b => sameItems a b
  | table a, table b => samePairs a b
  | _, _ => false

def sameItems : List Datum → List Datum → Bool
  | [], [] => true
  | a :: as, b :: bs => same a b && sameItems as bs
  | _, _ => false

def samePairs : List (Datum × Datum) → List (Datum × Datum) → Bool
  | [], [] => true
  | (a, x) :: as, (b, y) :: bs => same a b && same x y && samePairs as bs
  | _, _ => false

end

/-! ## Collections -/

/-- Pairs keys and values that come in turn. What is broken cannot be a key: what follows it takes
    its place. -/
def pairUp : List Datum → List (Datum × Datum)
  | broken :: rest => pairUp rest
  | key :: value :: rest => (key, value) :: pairUp rest
  | _ => []

def hasTwice : List (Datum × Datum) → Bool
  | [] => false
  | (key, _) :: rest => rest.any (fun p => same key p.1) || hasTwice rest

/-- A table of keys and values that come in turn, in which no key is twice. -/
def table? (data : List Datum) : Option Datum :=
  let pairs := pairUp data
  if hasTwice pairs then none else some (table pairs)

mutual

def ofNode : Yaml.Node → Option Datum
  | .absent => some nil
  | .enclosing => some broken
  | .scalar style tag s => some (ofScalar style tag s)
  | .sequence items => (ofItems items).map list
  | .mapping pairs => (ofPairs pairs).bind table?

def ofItems : List Yaml.Node → Option (List Datum)
  | [] => some []
  | node :: rest => do return (← ofNode node) :: (← ofItems rest)

def ofPairs : List (Yaml.Node × Yaml.Node) → Option (List Datum)
  | [] => some []
  | (key, value) :: rest => do return (← ofNode key) :: (← ofNode value) :: (← ofPairs rest)

end

/-! ## Values -/

def key : Datum → Except Fault String
  | text s => .ok s
  | integer n => .ok (Numeral.ofInt n)
  | _ => .error .strangeKey

mutual

def value : Datum → Except Fault Value
  | nil | broken => .ok .nil
  | bool b => .ok (.bool b)
  | integer n => .ok (.integer n)
  | real s =>
    match Binary64.parse? s.toList with
    | some x => .ok (.real x)
    | none => .error .unreadable
  | text s => .ok (.text s)
  | list items => do return .list (← values items)
  | table pairs => do return .table (← members [] pairs)

def values : List Datum → Except Fault (List Value)
  | [] => .ok []
  | datum :: rest => do return (← value datum) :: (← values rest)

/-- The members of a table, put behind those that came before. -/
def members (before : List (String × Value)) :
    List (Datum × Datum) → Except Fault (List (String × Value))
  | [] => .ok before
  | (k, v) :: rest => do
    let name ← key k
    members (Keyed.put name (← value v) before) rest

end

end Datum

/-- The table that a text with at most one document holds. -/
def readTable (text : String) : Except Fault (List (String × Value)) :=
  match Yaml.documents? .layered text with
  | some [] => .ok []
  | some [root] =>
    match (Datum.ofNode root).map Datum.value with
    | some (.ok (.table members)) => .ok members
    | some (.error fault) => .error fault
    | _ => .error .unreadable
  | _ => .error .unreadable

end LinkGuard.Layer
