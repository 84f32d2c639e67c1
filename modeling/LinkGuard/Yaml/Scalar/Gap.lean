import LinkGuard.Yaml.Cursor

/-! # Gaps in flow scalars

Between two words of a plain or quoted scalar lies a gap of blanks and line breaks. On one line it
is kept as it is. Over a line break the blanks are dropped, a single break becomes a space, and
further breaks stay.
-/

namespace LinkGuard.Yaml

/-- Blanks before the first break, the first break, and the breaks behind it, the last one first. -/
structure Gap where
  blanks : List Char
  first : List Char
  others : List Char
  broken : Bool

namespace Gap

def empty : Gap := ⟨[], [], [], false⟩

/-- A gap that an escaped line break has opened. -/
def escaped : Gap := ⟨[], [], [], true⟩

def text (g : Gap) : List Char :=
  if g.broken then
    match g.first with
    | ['\n'] => if g.others.isEmpty then [' '] else g.others.reverse
    | first => first ++ g.others.reverse
  else g.blanks.reverse

def isEmpty (g : Gap) : Bool := !g.broken && g.blanks.isEmpty

def addBreak (g : Gap) (c : Char) : Gap :=
  if g.broken then { g with others := breakChar c :: g.others }
  else ⟨[], [breakChar c], [], true⟩

/-- What a tab to the left of the block does. -/
inductive TabRule where
  | allowed
  | refused
  /-- It may stand on a line without content. -/
  | emptyLineOnly
deriving DecidableEq

/-- Reads on through a gap, of which `g` has been read. A tab behind a break and left of `indent` is
subject to the rule. -/
def read (d : Dialect) (rule : TabRule) (indent : Int) : Nat → Gap → Cursor → Option (Gap × Cursor)
  | 0, g, c => some (g, c)
  | fuel + 1, g, c =>
    match c.peek? with
    | some x =>
      if isBlank x then
        if g.broken then
          if x = '\t' ∧ (c.column : Int) < indent then
            match rule with
            | .allowed => read d rule indent fuel g c.skip
            | .refused => none
            | .emptyLineOnly =>
              match c.skipComment? d with
              | none => none
              | some c => if c.atLineEnd d then read d rule indent fuel g c else none
          else read d rule indent fuel g c.skip
        else read d rule indent fuel { g with blanks := x :: g.blanks } c.skip
      else if d.isBreak x then read d rule indent fuel (g.addBreak x) c.skipBreak
      else some (g, c)
    | none => some (g, c)

end Gap

end LinkGuard.Yaml
