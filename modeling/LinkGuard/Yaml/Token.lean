import LinkGuard.Yaml.Cursor
import LinkGuard.Text.Numeral

/-! # Tokens

The marks and scalars that a text is made of. The start and the end of a block are tokens too,
although nothing is written for them.
-/

namespace LinkGuard.Yaml

inductive Style where
  | plain
  | quoted
  | literal
  | folded
deriving DecidableEq

inductive Token where
  /-- The language version a document is written in. -/
  | version (major minor : Nat)
  /-- A short form for the beginning of tags. -/
  | tagHandle (handle stem : String)
  /-- A directive that says nothing. -/
  | otherDirective
  | documentStart
  | documentEnd
  | blockSequenceStart
  | blockMappingStart
  | blockEnd
  | blockEntry
  | flowSequenceStart
  | flowSequenceEnd
  | flowMappingStart
  | flowMappingEnd
  | flowEntry
  | key
  | value
  | alias (name : String)
  | anchor (name : String)
  | tag (handle suffix : String)
  | scalar (style : Style) (text : String)
deriving DecidableEq

/-! ## Names, tags and directives -/

/-- The name behind `&` or `*`. -/
def anchorName? (d : Dialect) (c : Cursor) : Option (String × Cursor) :=
  let (name, c) := c.skip.span fun x =>
    if d.narrowAnchors then isNameChar x else !isBlank x && !d.isBreak x && !isFlow x
  let follows := !d.narrowAnchors ||
    c.isEndOrAt 0 fun x => isBlank x || d.isBreak x || "?:,]\x7d%@\x60".toList.contains x
  if name.isEmpty || !follows then none else some (String.ofList name, c)

/-- The characters of a tag; those of flow collections only inside angle brackets. -/
def isTagChar (verbatim : Bool) (c : Char) : Bool :=
  isNameChar c || ";/?:@&=+$.!~*'()%".toList.contains c ||
    (verbatim && (c = ',' || c = '[' || c = ']'))

/-- Replaces each percent sign and the two digits behind it by the character with that code. -/
def decodePercent : List Char → Option (List Char)
  | [] => some []
  | '%' :: a :: b :: rest => do
    let code ← Numeral.natural? 16 [a, b]
    return Char.ofNat code :: (← decodePercent rest)
  | c :: rest => if c = '%' then none else (decodePercent rest).map (c :: ·)

/-- The part of a tag behind its handle. -/
def tagText? (verbatim : Bool) (c : Cursor) : Option (List Char × Cursor) :=
  let (text, c) := c.span (isTagChar verbatim)
  (decodePercent text).map fun text => (text, c)

/-- A handle: one or two exclamation marks with a name between them. -/
def tagHandle (c : Cursor) : List Char × Cursor :=
  let (name, c) := c.skip.span isNameChar
  if c.isAt 0 (· = '!') then ('!' :: name ++ ['!'], c.skip) else ('!' :: name, c)

def tagEnds (d : Dialect) (inFlow : Bool) (c : Cursor) : Bool :=
  c.isGapAt d 0 || (inFlow && c.isAt 0 fun x => if d.insideBlock then isFlow x else x = ',')

def readTag (d : Dialect) (inFlow : Bool) (start : Cursor) : Option (Token × Cursor) := do
  let (handle, suffix, c) ←
    if start.isAt 1 (· = '<') then do
      let (text, c) ← tagText? true (start.skipN 2)
      if text.isEmpty || !c.isAt 0 (· = '>') then none
      pure (([] : List Char), text, c.skip)
    else do
      let (handle, c) := tagHandle start
      let (text, c) ← tagText? false c
      if 2 ≤ handle.length && handle.getLast? = some '!' then
        if text.isEmpty then none
        pure (handle, text, c)
      else
        let suffix := handle.drop 1 ++ text
        if suffix.isEmpty then pure ([], ['!'], c) else pure (['!'], suffix, c)
  if tagEnds d inFlow c then some (.tag (String.ofList handle) (String.ofList suffix), c) else none

/-- A number of at most nine digits. -/
def versionNumber? (c : Cursor) : Option (Nat × Cursor) :=
  let (digits, c) := c.span fun x => '0' ≤ x && x ≤ '9'
  if 9 < digits.length then none else (Numeral.natural? 10 digits).map fun n => (n, c)

def directiveToken (d : Dialect) (c : Cursor) : Option (Token × Cursor) := do
  let (name, c) := c.skip.span isNameChar
  if name.isEmpty || !c.isGapAt d 0 then none
  match String.ofList name with
  | "YAML" =>
    let (major, c) ← versionNumber? (c.skipWhile isBlank)
    if !c.isAt 0 (· = '.') then none
    let (minor, c) ← versionNumber? c.skip
    return (.version major minor, c)
  | "TAG" =>
    let c := c.skipWhile isBlank
    if !c.isAt 0 (· = '!') then none
    let (handle, c) := tagHandle c
    if (2 ≤ handle.length && handle.getLast? ≠ some '!') || !c.atBlank then none
    let (stem, c) ← tagText? true (c.skipWhile isBlank)
    if stem.isEmpty || !c.isGapAt d 0 then none
    return (.tagHandle (String.ofList handle) (String.ofList stem), c)
  | _ => if d.knownDirectives then none else return (.otherDirective, c.skipLine d)

def readDirective (d : Dialect) (c : Cursor) : Option (Token × Cursor) := do
  let (token, c) ← directiveToken d c
  let c ← c.skipComment? d
  if c.atLineEnd d then some (token, c.skipBreak) else none

end LinkGuard.Yaml
