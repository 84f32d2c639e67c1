import LinkGuard.Yaml.Scalar.Block
import LinkGuard.Yaml.Scalar.Plain
import LinkGuard.Yaml.Scalar.Quoted
import LinkGuard.Yaml.Token

/-! # Lexing

A text becomes its tokens from left to right. Two things are known only later: that a scalar was a
key, which the colon behind it shows, and that a block is over, which a line further left shows. So
the lexer remembers where a key may have begun, and how far the open blocks are indented.
-/

namespace LinkGuard.Yaml

/-- A place where a key may have begun. -/
structure KeyPlace where
  /-- The block has no other use for what stands there. -/
  required : Bool
  /-- How many tokens there were before it. -/
  token : Nat
  index : Nat
  line : Nat
  column : Nat

/-- An open indentation: the one before it, and whether it began a block. -/
structure Indent where
  outer : Int
  isBlock : Bool

structure Lexer where
  cursor : Cursor
  tokens : Array Token
  indent : Int
  /-- The open indentations, the innermost first. -/
  indents : List Indent
  /-- How many flow collections are open. -/
  flow : Nat
  /-- The key places of the open flow collections and of the block around them, the innermost
      first. -/
  keys : List (Option KeyPlace)
  /-- A key may begin here. -/
  keyAllowed : Bool
  /-- Nothing but blanks has been read on this line. -/
  lineStart : Bool
  /-- The index at which a colon needs no blank behind it. -/
  adjacent : Option Nat
  finished : Bool

namespace Lexer

def start (text : List Char) : Lexer :=
  ⟨.start text, #[], -1, [], 0, [none], true, true, none, false⟩

def push (s : Lexer) (token : Token) : Lexer := { s with tokens := s.tokens.push token }

/-- The state with a token put in behind the first `n`. -/
def insert (s : Lexer) (n : Nat) (token : Token) : Lexer :=
  { s with tokens := (s.tokens.extract 0 n).push token ++ s.tokens.extract n s.tokens.size }

def inFlow (s : Lexer) : Bool := s.flow ≠ 0

/-- The state behind something that is no blank. -/
def moved (s : Lexer) (cursor : Cursor) : Lexer := { s with cursor, lineStart := false }

/-! ## Keys -/

/-- Forgets the innermost key place; one that is required may not be forgotten. -/
def removeKey (s : Lexer) : Option Lexer :=
  match s.keys with
  | some place :: outer => if place.required then none else some { s with keys := none :: outer }
  | _ => some s

def saveKey (d : Dialect) (s : Lexer) : Option Lexer := do
  let onBlock := s.indents.head?.any (·.isBlock)
  let required := !s.inFlow && s.indent = s.cursor.column && (onBlock || !d.insideBlock)
  if !s.keyAllowed then return s
  let s ← s.removeKey
  let place : KeyPlace := ⟨required, s.tokens.size, s.cursor.index, s.cursor.line, s.cursor.column⟩
  return { s with keys := some place :: s.keys.drop 1 }

/-- Whether a key that began there can no longer end here: a key stays on its line and is not too
    long. -/
def KeyPlace.isStale (place : KeyPlace) (c : Cursor) : Bool :=
  place.line < c.line || place.index + 1024 < c.index

def dropStale (d : Dialect) (s : Lexer) : Option Lexer :=
  if d.longFlowKeys && s.inFlow then some s
  else
    let stale (key : Option KeyPlace) := key.any (KeyPlace.isStale · s.cursor)
    if s.keys.any fun key => stale key && key.any (·.required) then none
    else some { s with keys := s.keys.map fun key => if stale key then none else key }

/-! ## Indentation -/

/-- Closes the blocks that are indented further than a column. -/
def unroll (column : Int) : List Indent → Lexer → Lexer
  | [], s => s
  | top :: outer, s =>
    if column < s.indent then
      let s := { s with indent := top.outer, indents := outer }
      unroll column outer (if top.isBlock then s.push .blockEnd else s)
    else s

def unrollTo (column : Int) (s : Lexer) : Lexer := if s.inFlow then s else unroll column s.indents s

/-- Closes the indentations that began no block. -/
def unrollLoose : List Indent → Lexer → Lexer
  | [], s => s
  | top :: outer, s =>
    if top.isBlock then s else unrollLoose outer { s with indent := top.outer, indents := outer }

/-- Opens a block at a column further right than the open ones; its token goes to a place, or to the
    end. -/
def roll (column : Nat) (place : Option Nat) (token : Token) (s : Lexer) : Lexer :=
  if s.inFlow then s
  else
    let s := match s.indents with
      | top :: outer =>
        if !top.isBlock && s.indent ≤ (column : Int) then
          { s with indent := top.outer, indents := outer }
        else s
      | [] => s
    if s.indent < (column : Int) then
      let s := { s with indent := column, indents := ⟨s.indent, true⟩ :: s.indents }
      match place with
      | some n => s.insert n token
      | none => s.push token
    else s

/-- Keeps what follows inside the block, one column further right. -/
def rollOne (d : Dialect) (s : Lexer) : Lexer :=
  if d.insideBlock && !s.inFlow && s.indents.head?.any (·.isBlock) then
    { s with indent := s.indent + 1, indents := ⟨s.indent, false⟩ :: s.indents }
  else s

/-! ## Between tokens -/

/-- Goes to the next token, over blanks, comments and line breaks. -/
def skipToToken (d : Dialect) : Nat → Lexer → Option Lexer
  | 0, s => some s
  | fuel + 1, s =>
    match s.cursor.peek? with
    | none => some s
    | some x =>
      if x = '\t' && d.insideBlock && !s.indents.isEmpty && s.lineStart &&
          s.cursor.column < s.indent then
        match s.cursor.skipComment? d with
        | none => none
        | some c => if c.atLineEnd d then skipToToken d fuel { s with cursor := c } else none
      else if x = ' ' || (x = '\t' && (d.insideBlock || s.inFlow || !s.keyAllowed)) then
        skipToToken d fuel { s with cursor := s.cursor.skip }
      else if x = '#' then skipToToken d fuel { s with cursor := s.cursor.skipLine d }
      else if d.isBreak x then
        skipToToken d fuel
          { s with
            cursor := s.cursor.skipBreak, keyAllowed := s.keyAllowed || !s.inFlow,
            lineStart := true }
      else some s

/-- Goes on to the end of the line where comments have to be set off. -/
def trail (d : Dialect) (s : Lexer) : Option Lexer :=
  if d.spacedComments then (s.cursor.skipComment? d).map fun c => { s with cursor := c } else some s

/-! ## One token -/

def finish (s : Lexer) : Option Lexer := do
  let s ← (s.unrollTo (-1)).removeKey
  return { s with keyAllowed := false, finished := true }

def directive (d : Dialect) (s : Lexer) : Option Lexer := do
  let s ← (s.unrollTo (-1)).removeKey
  let (token, c) ← readDirective d s.cursor
  return { (s.push token) with cursor := c, keyAllowed := false, lineStart := true }

def documentMarker (d : Dialect) (token : Token) (s : Lexer) : Option Lexer := do
  let s ← (s.unrollTo (-1)).removeKey
  let s := ({ s with keyAllowed := false }.moved (s.cursor.skipN 3)).push token
  if d.insideBlock && token = .documentEnd then
    let s ← s.trail d
    if s.cursor.atLineEnd d then return s else none
  else return s

def flowStart (d : Dialect) (token : Token) (s : Lexer) : Option Lexer := do
  let s := (← s.saveKey d).rollOne d
  let s := { s with flow := s.flow + 1, keys := none :: s.keys, keyAllowed := true }
  trail d ((s.moved s.cursor.skip).push token)

def flowEnd (d : Dialect) (token : Token) (s : Lexer) : Option Lexer := do
  let s ← s.removeKey
  let s := if s.inFlow then { s with flow := s.flow - 1, keys := s.keys.drop 1 } else s
  let s ← trail d ({ s with keyAllowed := false }.moved s.cursor.skip)
  let s := if s.inFlow then { s with adjacent := some s.cursor.index } else s
  return s.push token

def flowEntry (d : Dialect) (s : Lexer) : Option Lexer := do
  let s ← s.removeKey
  trail d (({ s with keyAllowed := true }.moved s.cursor.skip).push .flowEntry)

/-- The column that holds what follows a hyphen on the same line, where blocks hold their
    contents. -/
def entryIndent (d : Dialect) (s : Lexer) : Option Lexer :=
  if d.insideBlock then
    let (blanks, c) := s.cursor.span isBlank
    if blanks.contains '\t' && c.isAt 0 (· = '-') && c.isGapAt d 1 then none
    else match s.cursor.skipComment? d with
      | none => none
      | some c =>
        let s := { s with cursor := c }
        some (if c.isAt 0 fun x => d.isBreak x || isFlow x then s.rollOne d else s)
  else some s

def blockEntry (d : Dialect) (s : Lexer) : Option Lexer := do
  if s.inFlow then
    if d.insideBlock then none
  else if !s.keyAllowed then none
  let s := (s.roll s.cursor.column none .blockSequenceStart).moved s.cursor.skip
  let s ← (← entryIndent d s).removeKey
  return { s with keyAllowed := true }.push .blockEntry

def key (d : Dialect) (s : Lexer) : Option Lexer := do
  if !s.inFlow && !s.keyAllowed then none
  let s ← (s.roll s.cursor.column none .blockMappingStart).removeKey
  let s := { s with keyAllowed := !s.inFlow }.moved s.cursor.skip
  if d.insideBlock && (s.cursor.skipWhile (· = ' ')).isAt 0 (· = '\t') then none
  return s.push .key

/-- A tab behind a colon is no blank before a word. -/
def tabbedWord (d : Dialect) (c : Cursor) : Bool :=
  d.insideBlock && c.isAt 0 (· = '\t') &&
    (let (blanks, c) := c.span isBlank
     !blanks.contains ' ' && c.isAt 0 isNameChar)

def value (d : Dialect) (s : Lexer) : Option Lexer := do
  let here := s.cursor.column
  if tabbedWord d s.cursor.skip then none
  match s.keys with
  | some place :: outer =>
    let s := { s with keys := none :: outer }.insert place.token .key
    let s := (s.roll place.column (some place.token) .blockMappingStart).rollOne d
    return ({ s with keyAllowed := false }.moved s.cursor.skip).push .value
  | _ =>
    if !s.inFlow && !s.keyAllowed then none
    let s := (s.roll here none .blockMappingStart).rollOne d
    return ({ s with keyAllowed := !s.inFlow }.moved s.cursor.skip).push .value

def anchor (d : Dialect) (token : String → Token) (s : Lexer) : Option Lexer := do
  let s ← s.saveKey d
  let (name, c) ← anchorName? d s.cursor
  return ({ s with keyAllowed := false }.moved c).push (token name)

def tag (d : Dialect) (s : Lexer) : Option Lexer := do
  let s ← s.saveKey d
  let (token, c) ← readTag d s.inFlow s.cursor
  return ({ s with keyAllowed := false }.moved c).push token

def blockScalar (d : Dialect) (style : Style) (s : Lexer) : Option Lexer := do
  let s ← s.removeKey
  let s := if d.insideBlock then unrollLoose s.indents s else s
  let (text, c) ← Block.read d (style = .literal) s.indent s.cursor
  return { s with keyAllowed := true, cursor := c, lineStart := true }.push
    (.scalar style (String.ofList text))

/-- What may follow a quoted scalar where comments have to be set off. -/
def quotedEnds (d : Dialect) (startLine : Nat) (s : Lexer) : Bool :=
  !d.spacedComments || s.cursor.isEndOrAt 0 fun x =>
    d.isBreak x || (s.inFlow && (x = ',' || x = '}' || x = ']')) ||
      (x = ':' && (s.inFlow || startLine = s.cursor.line))

def quoted (d : Dialect) (single : Bool) (s : Lexer) : Option Lexer := do
  let s ← s.saveKey d
  let startLine := s.cursor.line
  let (text, c) ← Quoted.read d single s.indent s.cursor
  let s ← trail d ({ s with keyAllowed := false }.moved c)
  if !quotedEnds d startLine s then none
  return { s with adjacent := some s.cursor.index }.push (.scalar .quoted (String.ofList text))

def plain (d : Dialect) (s : Lexer) : Option Lexer := do
  let s ← s.saveKey d
  let s := if d.insideBlock then unrollLoose s.indents s else s
  let (text, broken, c) ← Plain.read d s.inFlow (s.indent + 1) s.cursor
  return { s with keyAllowed := broken, cursor := c, lineStart := broken }.push
    (.scalar .plain (String.ofList text))

/-- Whether a plain scalar may begin with the character at a cursor, which is no other indicator. -/
def startsPlain (d : Dialect) (inFlow : Bool) (c : Cursor) (x : Char) : Bool :=
  if d.eagerFlowIndicators then
    if x = '-' then !c.isEndOrAt 1 isBlank
    else if x = '?' || x = ':' then !inFlow
    else !isBlank x && !"#|>%@\x60".toList.contains x
  else !"%@\x60".toList.contains x

/-- Reads the token that begins with the character `x`. -/
def dispatch (d : Dialect) (s : Lexer) (x : Char) : Option Lexer :=
  let c := s.cursor
  let gap := c.isGapAt d 1
  let eager := d.eagerFlowIndicators && s.inFlow
  let adjacent := s.adjacent = some c.index
  match x with
  | '[' => s.flowStart d .flowSequenceStart
  | '{' => s.flowStart d .flowMappingStart
  | ']' => s.flowEnd d .flowSequenceEnd
  | '}' => s.flowEnd d .flowMappingEnd
  | ',' => s.flowEntry d
  | '*' => s.anchor d .alias
  | '&' => s.anchor d .anchor
  | '!' => s.tag d
  | '\'' => s.quoted d true
  | '"' => s.quoted d false
  | _ =>
    if x = '-' && gap then s.blockEntry d
    else if x = '?' && (gap || eager) then s.key d
    else if x = ':' && (gap || eager) then s.value d
    else if x = ':' && s.inFlow && (adjacent || c.isAt 1 isFlow) then
      if !adjacent && c.isAt 1 (fun y => y = '[' || y = '{') then none else s.value d
    else if x = '|' && !s.inFlow then s.blockScalar d .literal
    else if x = '>' && !s.inFlow then s.blockScalar d .folded
    else if startsPlain d s.inFlow c x then s.plain d
    else none

def next (d : Dialect) (s : Lexer) : Option Lexer := do
  let s ← skipToToken d (s.cursor.rest.length + 1) s
  let s ← s.dropStale d
  let s := s.unrollTo s.cursor.column
  match s.cursor.peek? with
  | none => s.finish
  | some x =>
    if s.cursor.column = 0 && x = '%' then s.directive d
    else if s.cursor.atMarker d '-' then s.documentMarker d .documentStart
    else if s.cursor.atMarker d '.' then s.documentMarker d .documentEnd
    else if d.insideBlock && s.cursor.column < s.indent then none
    else s.dispatch d x

def all (d : Dialect) : Nat → Lexer → Option (List Token)
  | 0, _ => none
  | fuel + 1, s =>
    match s.next d with
    | none => none
    | some s => if s.finished then some s.tokens.toList else all d fuel s

end Lexer

/-- The characters a dialect takes, without a byte order mark in front. -/
def readable? (d : Dialect) (text : List Char) : Option (List Char) :=
  let text := if text.head? = some byteOrderMark then text.drop 1 else text
  if d.printableOnly then if text.all isPrintable then some text else none
  else some (text.takeWhile (· ≠ '\x00'))

def tokens? (d : Dialect) (text : String) : Option (List Token) := do
  let text ← readable? d text.toList
  Lexer.all d (text.length + 2) (.start text)

end LinkGuard.Yaml
