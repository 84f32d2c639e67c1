import LinkGuard.Text.Numeral
import LinkGuard.Yaml.Scalar.Gap

/-! # Quoted scalars

In single quotes a quote is written twice and nothing else is special. In double quotes a backslash
begins an escape: of one character, of a code of two, four or eight hexadecimal digits, or of a line
break.
-/

namespace LinkGuard.Yaml.Quoted

/-- The character that a backslash and one more character stand for. -/
def escape? : Char → Option Char
  | '0' => some '\x00'
  | 'a' => some '\x07'
  | 'b' => some '\x08'
  | 't' => some '\t'
  | '\t' => some '\t'
  | 'n' => some '\n'
  | 'v' => some '\x0b'
  | 'f' => some '\x0c'
  | 'r' => some '\r'
  | 'e' => some '\x1b'
  | ' ' => some ' '
  | '"' => some '"'
  | '/' => some '/'
  | '\\' => some '\\'
  | 'N' => some '\u0085'
  | '_' => some '\u00a0'
  | 'L' => some '\u2028'
  | 'P' => some '\u2029'
  | _ => none

/-- How many digits the code has that a backslash and this character begin. -/
def codeLength? : Char → Option Nat
  | 'x' => some 2
  | 'u' => some 4
  | 'U' => some 8
  | _ => none

/-- The character with a code, which has to be one. -/
def charOf? (code : Nat) : Option Char := if code.isValidChar then some (Char.ofNat code) else none

/-- The character that the escape at a cursor stands for. -/
def escaped? (c : Cursor) : Option (Char × Cursor) :=
  match c.rest[1]? with
  | none => none
  | some x =>
    match codeLength? x with
    | none => (escape? x).map fun y => (y, c.skipN 2)
    | some n =>
      let digits := (c.rest.drop 2).take n
      if digits.length = n then
        ((Numeral.natural? 16 digits).bind charOf?).map fun y => (y, c.skipN (n + 2))
      else none

/-- The characters up to the next gap or the closing quote. The flag says whether an escaped line
break was read. -/
def word (d : Dialect) (single : Bool) : Nat → Cursor → Option (List Char × Bool × Cursor)
  | 0, c => some ([], false, c)
  | fuel + 1, c =>
    match c.peek? with
    | none => some ([], false, c)
    | some x =>
      if isBlank x || d.isBreak x then some ([], false, c)
      else if single then
        if x = '\'' then
          if c.isAt 1 (· = '\'') then
            (word d single fuel (c.skipN 2)).map fun (rest, flag, c) => ('\'' :: rest, flag, c)
          else some ([], false, c)
        else (word d single fuel c.skip).map fun (rest, flag, c) => (x :: rest, flag, c)
      else if x = '"' then some ([], false, c)
      else if x = '\\' then
        if c.isAt 1 d.isBreak then some ([], true, c.skip.skipBreak)
        else match escaped? c with
          | none => none
          | some (y, c) => (word d single fuel c).map fun (rest, flag, c) => (y :: rest, flag, c)
      else (word d single fuel c.skip).map fun (rest, flag, c) => (x :: rest, flag, c)

def continue? (d : Dialect) (single : Bool) (indent : Int) :
    Nat → List Char → Cursor → Option (List Char × Cursor)
  | 0, _, _ => none
  | fuel + 1, text, c =>
    if c.atDocument d || c.atEnd then none
    else if d.insideBlock && (c.column : Int) < indent then none
    else match word d single c.rest.length c with
      | none => none
      | some (run, broken, c) =>
        if c.isAt 0 (· = if single then '\'' else '"') then some (text ++ run, c.skip)
        else
          let rule := if d.insideBlock then Gap.TabRule.refused else Gap.TabRule.allowed
          match Gap.read d rule indent c.rest.length (if broken then .escaped else .empty) c with
          | none => none
          | some (gap, c) => continue? d single indent fuel (text ++ run ++ gap.text) c

/-- The scalar whose opening quote is at a cursor, in a block whose indentation is `indent`. -/
def read (d : Dialect) (single : Bool) (indent : Int) (c : Cursor) : Option (List Char × Cursor) :=
  continue? d single indent (c.rest.length + 1) [] c.skip

end LinkGuard.Yaml.Quoted
