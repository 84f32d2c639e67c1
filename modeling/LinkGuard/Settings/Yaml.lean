import LinkGuard.Settings.Reading
import LinkGuard.Yaml.Document

/-! # Settings as a document

Settings as a text with one document. A scalar is what the setting asks for: as a text it is taken
as it is written, and a number has to be written as one. Where a collection is asked for, nothing at
all is an empty one.
-/

namespace LinkGuard.Yaml

def isNull (word : String) : Bool := ["null", "Null", "NULL", "~"].contains word

/-- A digit string that begins with a needless zero. -/
def isPadded : List Char → Bool
  | '0' :: c :: rest => (c :: rest).all fun x => '0' ≤ x && x ≤ '9'
  | _ => false

/-- A whole number in decimal, or with one of the marks of base 16, 8 and 2 in front. A plus sign
may come first. -/
def natural? (text : List Char) : Option Nat :=
  let digits := match text with
    | '+' :: rest => rest
    | rest => rest
  match digits with
  | '0' :: 'x' :: rest => Numeral.natural? 16 rest
  | '0' :: 'o' :: rest => Numeral.natural? 8 rest
  | '0' :: 'b' :: rest => Numeral.natural? 2 rest
  | _ => if isPadded digits then none else Numeral.natural? 10 digits

namespace Node

/-- Nothing, or an empty scalar without quotes. -/
def isEmpty : Node → Bool
  | absent => true
  | scalar style _ text => style = .plain && text.isEmpty
  | _ => false

def text? : Node → Option String
  | absent => some ""
  | scalar _ _ text => some text
  | _ => none

/-- A text, or nothing. Under the tag of nothing there can be nothing else. -/
def optionalText? : Node → Option (Option String)
  | absent => some none
  | scalar .plain (some tag) text =>
    if tag.text = Tag.languageStem ++ "null" then if isNull text then some none else none
    else some (some text)
  | scalar .plain none text => some (if text.isEmpty || isNull text then none else some text)
  | scalar _ _ text => some (some text)
  | _ => none

def texts? : Node → Option (List String)
  | sequence items => items.mapM text?
  | node => if node.isEmpty then some [] else none

/-- The pairs of a mapping under the texts of their keys. -/
def members? (pairs : List (Node × Node)) : Option (List (String × Node)) :=
  pairs.mapM fun (key, value) => key.text?.map fun key => (key, value)

def compound? : Node → Option (Compound Node)
  | mapping pairs => (members? pairs).map .table
  | node => if node.isEmpty then some (.table []) else none

/-- A number may be quoted nowhere, but a literal block may hold one under its tag. -/
def mayBeNumber (style : Style) (tag : Option Tag) : Bool :=
  style = .plain || (style = .literal && tag.any fun t => t.text = Tag.languageStem ++ "int")

def below? (bound : Nat) : Node → Option Nat
  | scalar style tag text =>
    if mayBeNumber style tag then (natural? text.toList).filter (· < bound) else none
  | _ => none

/-- The name in a tag that is not of the language. -/
def localName? (tag : Option Tag) : Option String :=
  match tag.map fun t => t.text.toList with
  | some ('!' :: c :: rest) => some (String.ofList (c :: rest))
  | _ => none

/-- A choice is its name, or nothing under its name as a tag. -/
def backend? : Node → Option Backend
  | scalar style tag text =>
    match localName? tag with
    | none => Backend.ofName? text
    | some name =>
      if style = .plain && (text.isEmpty || isNull text) then Backend.ofName? name else none
  | _ => none

def reading : Reading Node where
  compound := compound?
  closedRows := true
  text := text?
  text? := optionalText?
  texts := texts?
  below := below?
  backend := backend?

end Node

/-- The root of a text with at most one document. -/
def root? (d : Dialect) (text : String) : Option (Option Node) :=
  match documents? d text with
  | some [] => some none
  | some [root] => some (some root)
  | _ => none

end LinkGuard.Yaml

namespace LinkGuard.Settings

/-- The settings that a text holds, checked. -/
def ofYaml (text : String) : Except SettingsFault Settings :=
  checked .unparsable ((Yaml.root? .plain text).bind fun root =>
    Yaml.Node.reading.settings (root.getD .absent))

/-- The settings in a file, of which `content` gives the bytes if there is such a file. -/
def ofFile (content : Option ByteArray) : Except Failure Settings :=
  match content with
  | none => .error (.file "No such file or directory (os error 2)")
  | some bytes =>
    match String.fromUTF8? bytes with
    | none => .error (.file "stream did not contain valid UTF-8")
    | some text => (ofYaml text).mapError .settings

end LinkGuard.Settings
