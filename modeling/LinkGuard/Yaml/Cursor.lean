import LinkGuard.Yaml.Dialect

/-! # Places in a text

A cursor is the rest of a text and the place where it begins. All reading goes forward through
cursors.
-/

namespace LinkGuard.Yaml

structure Cursor where
  rest : List Char
  index : Nat
  line : Nat
  column : Nat

namespace Cursor

def start (text : List Char) : Cursor := ⟨text, 0, 0, 0⟩

def peek? (c : Cursor) : Option Char := c.rest.head?

/-- Whether the character `n` places ahead is in a class. -/
def isAt (c : Cursor) (n : Nat) (p : Char → Bool) : Bool := (c.rest[n]?).any p

/-- Whether the character `n` places ahead is in a class, or the text ends before. -/
def isEndOrAt (c : Cursor) (n : Nat) (p : Char → Bool) : Bool := (c.rest[n]?).all p

def atEnd (c : Cursor) : Bool := c.rest.isEmpty

def atBlank (c : Cursor) : Bool := c.isAt 0 isBlank

def atBreak (d : Dialect) (c : Cursor) : Bool := c.isAt 0 d.isBreak

def atLineEnd (d : Dialect) (c : Cursor) : Bool := c.isEndOrAt 0 d.isBreak

/-- A blank, a line end or the end of the text stands `n` places ahead. -/
def isGapAt (d : Dialect) (c : Cursor) (n : Nat) : Bool :=
  c.isEndOrAt n fun x => isBlank x || d.isBreak x

/-- Behind one character that is no line break. -/
def skip (c : Cursor) : Cursor := ⟨c.rest.drop 1, c.index + 1, c.line, c.column + 1⟩

def skipN : Nat → Cursor → Cursor
  | 0, c => c
  | n + 1, c => skipN n c.skip

/-- Behind one line break, which may be two characters. -/
def skipBreak (c : Cursor) : Cursor :=
  match c.rest with
  | '\r' :: '\n' :: rest => ⟨rest, c.index + 2, c.line + 1, 0⟩
  | _ :: rest => ⟨rest, c.index + 1, c.line + 1, 0⟩
  | [] => c

/-- The characters in a class that come next, and the place behind them. None of them is a line
    break. -/
def span (p : Char → Bool) (c : Cursor) : List Char × Cursor :=
  let run := c.rest.takeWhile p
  (run, ⟨c.rest.drop run.length, c.index + run.length, c.line, c.column + run.length⟩)

def skipWhile (p : Char → Bool) (c : Cursor) : Cursor := (c.span p).2

def skipLine (d : Dialect) (c : Cursor) : Cursor := c.skipWhile fun x => !d.isBreak x

/-- Three hyphens or three points at the start of a line, set off from what follows. -/
def atMarker (d : Dialect) (mark : Char) (c : Cursor) : Bool :=
  c.column = 0 && c.isAt 0 (· = mark) && c.isAt 1 (· = mark) && c.isAt 2 (· = mark) && c.isGapAt d 3

def atDocument (d : Dialect) (c : Cursor) : Bool := c.atMarker d '-' || c.atMarker d '.'

/-- Behind the blanks of this line and a comment. Where comments have to be set off, one that is not
is refused. -/
def skipComment? (d : Dialect) (c : Cursor) : Option Cursor :=
  let (blanks, c) := c.span isBlank
  if c.isAt 0 (· = '#') then
    if d.spacedComments && blanks.isEmpty then none else some (c.skipLine d)
  else some c

end Cursor

end LinkGuard.Yaml
