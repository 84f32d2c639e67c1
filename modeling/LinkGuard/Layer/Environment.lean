import LinkGuard.Layer.Value
import LinkGuard.Text.Fields

/-! # The environment as a layer

A variable belongs to the layer if its name begins with the program's name and two underscores, in
letters of any case. Each further pair of underscores leads one table further in.
-/

namespace LinkGuard.Layer.Environment

/-- What the names of the layer begin with, in lower case. -/
def start : String := "verigate__"

def listKey : String := "redis.sentinel.hosts"

/-- A point for each pair of underscores. -/
def points : List Char → List Char
  | '_' :: '_' :: rest => '.' :: points rest
  | c :: rest => c :: points rest
  | [] => []

/-- The key that a variable stands for. -/
def key? (name : String) : Option String :=
  let name := (Text.lower name).toList
  if start.toList.isPrefixOf name then some (String.ofList (points (name.drop start.length)))
  else none

/-- A value of the environment: a truth value, a whole number of 64 bits, another number, a list if
the key says so, or else a text. -/
def value (key text : String) : Value :=
  match Text.lower text with
  | "true" => .bool true
  | "false" => .bool false
  | _ =>
    match Numeral.word? 10 text.toList with
    | some n => .integer n
    | none =>
      match Binary64.parse? text.toList with
      | some x => .real x
      | none =>
        if key = listKey then
          .list ((Text.fields ',' text.toList).map fun item => .text (String.ofList item))
        else .text text

def members (environment : List (String × String)) : List (String × Value) :=
  environment.filterMap fun (name, text) => (key? name).map fun key => (key, value key text)

end LinkGuard.Layer.Environment
