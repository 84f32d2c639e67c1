/-! # Dialects

Two readers of the same language differ in corners that its definition leaves open or that one of
them refuses. A dialect is one choice for each of these corners.
-/

namespace LinkGuard.Yaml

structure Dialect where
  /-- Next-line, line-separator and paragraph-separator characters end a line too. -/
  wideBreaks : Bool
  /-- A character that is not printable is refused. Otherwise the null character ends the text. -/
  printableOnly : Bool
  /-- A flow collection and a quoted scalar stay inside the block they stand in, and tabs never
      indent. -/
  insideBlock : Bool
  /-- A comment behind an indicator or a quoted scalar is set off by a blank. -/
  spacedComments : Bool
  /-- In a flow collection a key may go over several lines. -/
  longFlowKeys : Bool
  /-- In a flow collection `?` and `:` are indicators even if no blank follows. -/
  eagerFlowIndicators : Bool
  /-- A mapping may have a value without a key. -/
  missingKeys : Bool
  /-- The last line of a block scalar counts as ended where the text ends. -/
  endsLastLine : Bool
  /-- The name of an anchor is letters, digits, hyphens and underscores only. -/
  narrowAnchors : Bool
  /-- Unknown directives and language versions are refused. -/
  knownDirectives : Bool
  /-- Each directive of a document takes back those before it. -/
  lastDirectiveOnly : Bool
  /-- A lone exclamation mark before a scalar says nothing. Otherwise it is a tag. -/
  loneMarkIsNothing : Bool
  /-- Behind an explicit end, a document needs an explicit start. -/
  explicitStart : Bool

/-- The reader of settings files on their own. -/
def Dialect.plain : Dialect where
  wideBreaks := true
  printableOnly := true
  insideBlock := false
  spacedComments := false
  longFlowKeys := false
  eagerFlowIndicators := true
  missingKeys := false
  endsLastLine := false
  narrowAnchors := true
  knownDirectives := true
  lastDirectiveOnly := false
  loneMarkIsNothing := true
  explicitStart := true

/-- The reader of settings files that other layers lie upon. -/
def Dialect.layered : Dialect where
  wideBreaks := false
  printableOnly := false
  insideBlock := true
  spacedComments := true
  longFlowKeys := true
  eagerFlowIndicators := false
  missingKeys := true
  endsLastLine := true
  narrowAnchors := false
  knownDirectives := false
  lastDirectiveOnly := true
  loneMarkIsNothing := false
  explicitStart := false

namespace Dialect

def isBreak (d : Dialect) (c : Char) : Bool :=
  c = '\n' || c = '\r' || (d.wideBreaks && (c = '\u0085' || c = '\u2028' || c = '\u2029'))

end Dialect

def isBlank (c : Char) : Bool := c = ' ' || c = '\t'

/-- The characters that end a plain scalar in a flow collection. -/
def isFlow (c : Char) : Bool := c = ',' || c = '[' || c = ']' || c = '{' || c = '}'

def isNameChar (c : Char) : Bool :=
  ('0' ≤ c && c ≤ '9') || ('A' ≤ c && c ≤ 'Z') || ('a' ≤ c && c ≤ 'z') || c = '_' || c = '-'

def byteOrderMark : Char := '\ufeff'

def isPrintable (c : Char) : Bool :=
  c = '\t' || c = '\n' || c = '\r' || (' ' ≤ c && c ≤ '~') || c = '\u0085' ||
    ('\u00a0' ≤ c && c ≤ '\ufffd' && c ≠ byteOrderMark) || '\ufffd'.toNat + 2 < c.toNat

/-- The character that a line break stands for in a scalar. -/
def breakChar (c : Char) : Char := if c = '\u2028' || c = '\u2029' then c else '\n'

end LinkGuard.Yaml
