import LinkGuard.Yaml.Cursor

/-! # Block scalars

A block scalar is announced by `|` or `>`, with two options: what becomes of the line breaks at its
end, and by how much its lines are indented. Its lines are kept, or folded where neither of two
lines begins with a blank.
-/

namespace LinkGuard.Yaml.Block

/-- What becomes of the breaks at the end: none stays, one stays, or all. -/
inductive Chomping where
  | strip
  | clip
  | keep
deriving DecidableEq

def chomping? (c : Cursor) : Option Chomping :=
  if c.isAt 0 (· = '+') then some .keep else if c.isAt 0 (· = '-') then some .strip else none

/-- The digit of the indentation option; zero is refused. -/
def digit? (c : Cursor) : Option (Option Nat) :=
  match c.peek? with
  | none => some none
  | some x =>
    if '1' ≤ x ∧ x ≤ '9' then some (some (x.toNat - '0'.toNat))
    else if x = '0' then none
    else some none

def options (c : Cursor) : Option (Chomping × Option Nat × Cursor) :=
  match chomping? c with
  | some chomping =>
    (digit? c.skip).map fun
      | none => (chomping, none, c.skip)
      | some n => (chomping, some n, c.skip.skip)
  | none =>
    (digit? c).map fun
      | none => (.clip, none, c)
      | some n =>
        match chomping? c.skip with
        | some chomping => (chomping, some n, c.skip.skip)
        | none => (.clip, some n, c.skip)

def takeBreak (c : Cursor) : List Char := (c.peek?.map breakChar).toList

/-- The spaces up to a column, or all of them. -/
def skipSpaces (limit : Option Nat) : Nat → Cursor → Cursor
  | 0, c => c
  | fuel + 1, c =>
    if c.isAt 0 (· = ' ') && limit.all (c.column < ·) then skipSpaces limit fuel c.skip else c

/-- Reads empty lines, indented up to `limit` or by any number of spaces. The results are the
breaks, the largest column met, and the place behind. A tab in the indentation is refused, except
where tabs are checked elsewhere. -/
def emptyLines (d : Dialect) (limit : Option Nat) :
    Nat → List Char → Nat → Cursor → Option (List Char × Nat × Cursor)
  | 0, breaks, widest, c => some (breaks, widest, c)
  | fuel + 1, breaks, widest, c =>
    let c := skipSpaces limit c.rest.length c
    let widest := max widest c.column
    if !d.insideBlock && c.isAt 0 (· = '\t') && limit.all (c.column < ·) then none
    else if c.atBreak d then emptyLines d limit fuel (breaks ++ takeBreak c) widest c.skipBreak
    else some (breaks, widest, c)

structure Lines where
  text : List Char
  /-- The break that ends the last line, if it has been read. -/
  leading : List Char
  /-- The breaks of the empty lines behind it. -/
  trailing : List Char
  /-- The last line began with a blank. -/
  indented : Bool

/-- The text so far joined to a line that begins with a blank or does not. -/
def Lines.join (literal : Bool) (s : Lines) (blankFirst : Bool) : List Char :=
  if !literal && s.leading = ['\n'] && !s.indented && !blankFirst then
    s.text ++ (if s.trailing.isEmpty then [' '] else s.trailing)
  else s.text ++ s.leading ++ s.trailing

def lines (d : Dialect) (literal : Bool) (indent : Nat) :
    Nat → Lines → Cursor → Option (Lines × Cursor)
  | 0, s, c => some (s, c)
  | fuel + 1, s, c =>
    if c.column = indent && !c.atEnd then
      let blankFirst := c.atBlank
      let joined := s.join literal blankFirst
      let (line, c) := c.span fun x => !d.isBreak x
      let text := joined ++ line
      if d.endsLastLine && c.atEnd then some (⟨text, [], [], blankFirst⟩, c)
      else
        let leading := takeBreak c
        match emptyLines d (some indent) c.rest.length [] 0 c.skipBreak with
        | none => none
        | some (trailing, _, c) =>
            lines d literal indent fuel ⟨text, leading, trailing, blankFirst⟩ c
    else some (s, c)

/-- The column of the lines where no option gives it: that of the first line with content. -/
def detected (widest : Nat) (parent : Int) : Nat := max 1 (max widest (parent + 1).toNat)

/-- The text with the breaks that the option leaves at its end. -/
def chomp (chomping : Chomping) (s : Lines) : List Char :=
  match chomping with
  | .strip => s.text
  | .clip => s.text ++ s.leading
  | .keep => s.text ++ s.leading ++ s.trailing

/-- The text of a scalar without any line, where the last line counts as ended. -/
def blank (chomping : Chomping) (sameLine : Bool) (first trailing : List Char) : List Char :=
  match chomping with
  | .strip => []
  | .clip => if sameLine then [] else first
  | .keep => if sameLine then [] else if trailing.isEmpty then first else trailing

/-- The scalar whose indicator is at a cursor, in a block whose indentation is `parent`. -/
def read (d : Dialect) (literal : Bool) (parent : Int) (start : Cursor) :
    Option (List Char × Cursor) := do
  let (chomping, increment, c) ← options start.skip
  let c ← c.skipComment? d
  if !c.atLineEnd d then none
  let first := takeBreak c
  let c := c.skipBreak
  if d.insideBlock && c.isAt 0 (· = '\t') then none
  let fixed := increment.map fun n => n + parent.toNat
  let (trailing, widest, c) ← emptyLines d fixed (c.rest.length + 1) [] 0 c
  let indent := fixed.getD (detected widest parent)
  if d.endsLastLine && c.atEnd then
    return (blank chomping (c.line = start.line) first trailing, c)
  if d.insideBlock && c.column < indent && parent < c.column then none
  let (s, c) ← lines d literal indent (c.rest.length + 1) ⟨[], [], trailing, false⟩ c
  let text := chomp chomping s
  if d.endsLastLine && c.atEnd && max 1 indent ≤ c.column && chomping ≠ .strip then
    return (s.text ++ s.leading ++ ['\n'] ++ (if chomping = .keep then s.trailing else []), c)
  return (text, c)

end LinkGuard.Yaml.Block
