import LinkGuard.Yaml.Scalar.Gap

/-! # Plain scalars

A plain scalar has no quotes around it. It ends before a comment, before a colon that a blank
follows, in a flow collection before an indicator of that collection, and in a block before a line
that is indented too little.
-/

namespace LinkGuard.Yaml.Plain

/-- The characters up to the next gap or the end of the scalar. A colon that would run into a flow
indicator is refused where indicators are eager, and ends the scalar elsewhere. -/
def word (d : Dialect) (inFlow : Bool) : Nat → Cursor → Option (List Char × Cursor)
  | 0, c => some ([], c)
  | fuel + 1, c =>
    match c.peek? with
    | none => some ([], c)
    | some x =>
      if isBlank x || d.isBreak x then some ([], c)
      else if x = ':' && c.isGapAt d 1 then some ([], c)
      else if x = ':' && inFlow &&
          c.isAt 1 (fun y => isFlow y || (d.eagerFlowIndicators && y = '?')) then
        if d.eagerFlowIndicators then none else some ([], c)
      else if inFlow && isFlow x then some ([], c)
      else (word d inFlow fuel c.skip).map fun (rest, c) => (x :: rest, c)

/-- Reads on through a scalar whose text so far is `text`, with `gap` behind it. The flag of the
result says whether it ended behind a line break. -/
def continue? (d : Dialect) (inFlow : Bool) (indent : Int) :
    Nat → List Char → Gap → Cursor → Option (List Char × Bool × Cursor)
  | 0, text, gap, c => some (text, gap.broken, c)
  | fuel + 1, text, gap, c =>
    if c.atDocument d || c.isAt 0 (· = '#') then some (text, gap.broken, c)
    else match word d inFlow c.rest.length c with
      | none => none
      | some ([], c) => some (text, gap.broken, c)
      | some (run, c) =>
        let text := text ++ gap.text ++ run
        if c.atBlank || c.atBreak d then
          let rule := if d.insideBlock then Gap.TabRule.emptyLineOnly else Gap.TabRule.refused
          match Gap.read d rule indent c.rest.length .empty c with
          | none => none
          | some (gap, c) =>
            if !inFlow && (c.column : Int) < indent then some (text, gap.broken, c)
            else continue? d inFlow indent fuel text gap c
        else some (text, false, c)

/-- The scalar at a cursor, in a block whose contents begin at column `indent`. -/
def read (d : Dialect) (inFlow : Bool) (indent : Int) (c : Cursor) :
    Option (List Char × Bool × Cursor) :=
  if d.insideBlock && inFlow && (c.column : Int) < indent then none
  else continue? d inFlow indent (c.rest.length + 1) [] .empty c

end LinkGuard.Yaml.Plain
