import LinkGuard.Yaml.Lexer
import LinkGuard.Yaml.Node

/-! # Documents

Tokens become the nodes of documents from left to right. What may stand in a place depends on the
place: a block only inside a block, a sequence without indentation of its own only behind a key or a
colon, and nothing at all where the token that follows already belongs to the collection around it.
-/

namespace LinkGuard.Yaml

/-! ## Directives -/

/-- What the handles of tags are short for, the nearest first. -/
abbrev Stems := List (String × String)

namespace Stems

/-- The handles that need no directive. -/
def standard : Stems := [("", ""), ("!", "!"), ("!!", Tag.languageStem)]

def resolve? (stems : Stems) (handle suffix : String) : Option Tag :=
  (stems.lookup handle).map fun stem => ⟨stem, suffix⟩

end Stems

/-- What the directives of a document have said so far. -/
structure Directives where
  versioned : Bool
  stems : Stems

def Directives.empty : Directives := ⟨false, []⟩

/-- One more directive. Two versions are refused, and two stems for one handle unless the first is
    taken back. -/
def Directives.add? (d : Dialect) (s : Directives) : Token → Option Directives
  | .version major minor =>
    if s.versioned || (d.knownDirectives && !(major = 1 && (minor = 1 || minor = 2))) then none
    else some ⟨true, if d.lastDirectiveOnly then [] else s.stems⟩
  | .tagHandle handle stem =>
    if d.lastDirectiveOnly then some { s with stems := [(handle, stem)] }
    else if (s.stems.lookup handle).isSome then none
    else some { s with stems := (handle, stem) :: s.stems }
  | _ => some (if d.lastDirectiveOnly then { s with stems := [] } else s)

def Token.isDirective : Token → Bool
  | .version _ _ | .tagHandle _ _ | .otherDirective => true
  | _ => false

def readDirectives (d : Dialect) (s : Directives) : List Token → Option (Directives × List Token)
  | [] => some (s, [])
  | token :: rest =>
    if token.isDirective then (s.add? d token).bind fun s => readDirectives d s rest
    else some (s, token :: rest)

/-! ## Nodes -/

inductive Place where
  | flow
  | block
  /-- Behind a key or a colon of a block. -/
  | entry
deriving DecidableEq

/-- The tokens that are left, and the named nodes so far; a node without contents is still open. -/
structure Composer where
  tokens : List Token
  anchors : Array (String × Option Node)

namespace Composer

def skip (s : Composer) : Composer := { s with tokens := s.tokens.drop 1 }

def register (s : Composer) (name : String) : Composer :=
  { s with anchors := s.anchors.push (name, none) }

def complete (s : Composer) (anchor : Option Nat) (node : Node) : Composer :=
  match anchor with
  | none => s
  | some i => { s with anchors := s.anchors.modify i fun a => (a.1, some node) }

def find? (s : Composer) (name : String) : Option Node :=
  (s.anchors.toList.reverse.lookup name).map fun node => node.getD .enclosing

def isAt (s : Composer) (tokens : List Token) : Bool := s.tokens.head?.any tokens.contains

/-- A node's marks: its place among the named nodes, and its tag. -/
structure Marks where
  anchor : Option Nat
  tag : Option Tag

def Marks.isEmpty (m : Marks) : Bool := m.anchor.isNone && m.tag.isNone

/-- The marks of the node that begins here, in either order. -/
def marks (stems : Stems) (s : Composer) : Option (Marks × Composer) :=
  match s.tokens with
  | .anchor name :: .tag handle suffix :: rest | .tag handle suffix :: .anchor name :: rest =>
    (stems.resolve? handle suffix).map fun tag =>
      (⟨some s.anchors.size, some tag⟩, { s with tokens := rest }.register name)
  | .anchor name :: rest =>
      some (⟨some s.anchors.size, none⟩, { s with tokens := rest }.register name)
  | .tag handle suffix :: rest =>
    (stems.resolve? handle suffix).map fun tag => (⟨none, some tag⟩, { s with tokens := rest })
  | _ => some (⟨none, none⟩, s)

def scalarTag (d : Dialect) (tag : Option Tag) : Option Tag :=
  tag.filter fun t => !(d.loneMarkIsNothing && t.text = "!")

structure Context where
  dialect : Dialect
  stems : Stems

mutual

def node (x : Context) (place : Place) : Nat → Composer → Option (Node × Composer)
  | 0, _ => none
  | fuel + 1, s =>
    match s.tokens with
    | .alias name :: _ => (s.find? name).map fun n => (n, s.skip)
    | _ => do
      let (marks, s) ← s.marks x.stems
      let (n, s) ← contents x place marks fuel s
      return (n, s.complete marks.anchor n)

def contents (x : Context) (place : Place) (marks : Marks) :
    Nat → Composer → Option (Node × Composer)
  | 0, _ => none
  | fuel + 1, s =>
    let items (r : Option (List Node × Composer)) :=
      r.map fun (items, s) => (Node.sequence items, s)
    let pairs (r : Option (List (Node × Node) × Composer)) :=
      r.map fun (pairs, s) => (Node.mapping pairs, s)
    match s.tokens.head?, place with
    | some .blockEntry, .entry => items (looseItems x fuel s)
    | some (.scalar style text), _ =>
        some (.scalar style (scalarTag x.dialect marks.tag) text, s.skip)
    | some .flowSequenceStart, _ => items (flowItems x true fuel s.skip)
    | some .flowMappingStart, _ => pairs (flowPairs x true fuel s.skip)
    | some .blockSequenceStart, .block | some .blockSequenceStart, .entry =>
        items (blockItems x fuel s.skip)
    | some .blockMappingStart, .block | some .blockMappingStart, .entry =>
        pairs (blockPairs x fuel s.skip)
    | _, _ => if marks.isEmpty then none else some (.scalar .plain marks.tag "", s)

/-- The node that begins here, or nothing if the next token is one of `ends`. -/
def nodeOr (x : Context) (place : Place) (ends : List Token) :
    Nat → Composer → Option (Node × Composer)
  | 0, _ => none
  | fuel + 1, s => if s.isAt ends then some (.absent, s) else node x place fuel s

/-- The node behind a colon, or nothing if there is no colon or nothing behind it. -/
def value (x : Context) (place : Place) (ends : List Token) :
    Nat → Composer → Option (Node × Composer)
  | 0, _ => none
  | fuel + 1, s => if s.isAt [.value] then nodeOr x place ends fuel s.skip else some (.absent, s)

def blockItems (x : Context) : Nat → Composer → Option (List Node × Composer)
  | 0, _ => none
  | fuel + 1, s =>
    if s.isAt [.blockEntry] then do
      let (item, s) ← nodeOr x .block [.blockEntry, .blockEnd] fuel s.skip
      let (items, s) ← blockItems x fuel s
      return (item :: items, s)
    else if s.isAt [.blockEnd] then some ([], s.skip)
    else none

/-- The items of a sequence without indentation of its own. -/
def looseItems (x : Context) : Nat → Composer → Option (List Node × Composer)
  | 0, _ => none
  | fuel + 1, s =>
    if s.isAt [.blockEntry] then do
      let (item, s) ← nodeOr x .block [.blockEntry, .key, .value, .blockEnd] fuel s.skip
      let (items, s) ← looseItems x fuel s
      return (item :: items, s)
    else some ([], s)

def blockPairs (x : Context) : Nat → Composer → Option (List (Node × Node) × Composer)
  | 0, _ => none
  | fuel + 1, s =>
    let ends := [Token.key, .value, .blockEnd]
    if s.isAt [.blockEnd] then some ([], s.skip)
    else do
      let (key, s) ←
        if s.isAt [.key] then nodeOr x .entry ends fuel s.skip
        else if x.dialect.missingKeys && s.isAt [.value] then some (.absent, s)
        else none
      let (v, s) ← value x .entry ends fuel s
      let (pairs, s) ← blockPairs x fuel s
      return ((key, v) :: pairs, s)

/-- The items up to a closing bracket. Behind the first one each has a comma before it. -/
def flowItems (x : Context) (first : Bool) : Nat → Composer → Option (List Node × Composer)
  | 0, _ => none
  | fuel + 1, s =>
    if s.isAt [.flowSequenceEnd] then some ([], s.skip)
    else if !first && !s.isAt [.flowEntry] then none
    else
      let s := if first then s else s.skip
      if s.isAt [.flowSequenceEnd] then some ([], s.skip)
      else do
        let (item, s) ← if s.isAt [.key] then single x fuel s.skip else node x .flow fuel s
        let (items, s) ← flowItems x false fuel s
        return (item :: items, s)

/-- A pair that stands in a sequence by itself. A colon, comma or bracket in the place of its key is
    passed over. -/
def single (x : Context) : Nat → Composer → Option (Node × Composer)
  | 0, _ => none
  | fuel + 1, s => do
    let ends := [Token.flowEntry, .flowSequenceEnd]
    let (key, s) ← if s.isAt (.value :: ends) then some (.absent, s.skip) else node x .flow fuel s
    let (v, s) ← value x .flow ends fuel s
    return (.mapping [(key, v)], s)

/-- The pairs up to a closing brace. Behind the first one each has a comma before it. -/
def flowPairs (x : Context) (first : Bool) : Nat → Composer → Option (List (Node × Node) × Composer)
  | 0, _ => none
  | fuel + 1, s =>
    if s.isAt [.flowMappingEnd] then some ([], s.skip)
    else if !first && !s.isAt [.flowEntry] then none
    else
      let s := if first then s else s.skip
      if s.isAt [.flowMappingEnd] then some ([], s.skip)
      else do
        let (pair, s) ← flowPair x fuel s
        let (pairs, s) ← flowPairs x false fuel s
        return (pair :: pairs, s)

/-- One pair of a flow mapping: a key that a colon may follow, or a node without a value. -/
def flowPair (x : Context) : Nat → Composer → Option ((Node × Node) × Composer)
  | 0, _ => none
  | fuel + 1, s =>
    let ends := [Token.flowEntry, .flowMappingEnd]
    if s.isAt [.key] then do
      let (key, s) ← nodeOr x .flow (.value :: ends) fuel s.skip
      let (v, s) ← value x .flow ends fuel s
      return ((key, v), s)
    else if x.dialect.missingKeys && s.isAt [.value] then
      (value x .flow ends fuel s).map fun (v, s) => ((.absent, v), s)
    else (node x .flow fuel s).map fun (key, s) => ((key, .absent), s)

end

end Composer

/-! ## Documents -/

def Token.endsDocument (t : Token) : Bool := t.isDirective || t = .documentStart || t = .documentEnd

/-- The root node of the document that begins here, and the tokens behind it. -/
def readRoot (d : Dialect) (stems : Stems) (explicit : Bool) (tokens : List Token) :
    Option (Node × List Token) :=
  if explicit && tokens.head?.all Token.endsDocument then some (.absent, tokens)
  else
    (Composer.node ⟨d, stems ++ Stems.standard⟩ .block (4 * tokens.length + 4) ⟨tokens, #[]⟩).map
      fun (root, s) => (root, s.tokens)

/-- The roots of all documents. `bare` says whether the next one may begin without a marker. -/
def readDocuments (d : Dialect) : Nat → Bool → List Token → Option (List Node)
  | 0, _, _ => none
  | fuel + 1, bare, tokens => do
    let tokens := if d.explicitStart && bare then tokens else tokens.dropWhile (· = .documentEnd)
    let some next := tokens.head? | return []
    let explicit := next.isDirective || next = .documentStart
    if !explicit && !bare then none
    let (directives, tokens) ← readDirectives d .empty tokens
    if explicit && tokens.head? ≠ some .documentStart then none
    let (root, tokens) ←
      readRoot d directives.stems explicit (if explicit then tokens.drop 1 else tokens)
    let ended := tokens.head? = some .documentEnd
    if !ended && !d.explicitStart && tokens.head?.any Token.isDirective then none
    return root :: (← readDocuments d fuel (ended && !d.explicitStart) tokens)

/-- The documents of a text, each given by its root node. -/
def documents? (d : Dialect) (text : String) : Option (List Node) := do
  let tokens ← tokens? d text
  readDocuments d (tokens.length + 1) true tokens

end LinkGuard.Yaml
