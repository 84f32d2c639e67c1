import LinkGuard.Yaml.Token

/-! # Nodes

What the tokens of a text mean: a tree of scalars, sequences and mappings. An alias stands for a
copy of the node it names; only a node that is still open cannot be copied.
-/

namespace LinkGuard.Yaml

/-- A tag, with its handle replaced by what the handle is short for. -/
structure Tag where
  stem : String
  suffix : String
deriving DecidableEq

def Tag.text (t : Tag) : String := t.stem ++ t.suffix

/-- What the tags of the language itself begin with. -/
def Tag.languageStem : String := "tag:yaml.org,2002:"

inductive Node where
  /-- Nothing is written where a node could stand. -/
  | absent
  | scalar (style : Style) (tag : Option Tag) (text : String)
  | sequence (items : List Node)
  | mapping (pairs : List (Node × Node))
  /-- The alias of a node around it. -/
  | enclosing

namespace Node

mutual

def same : Node → Node → Bool
  | absent, absent => true
  | scalar style tag text, scalar style' tag' text' => style = style' && tag = tag' && text = text'
  | sequence items, sequence items' => sameItems items items'
  | mapping pairs, mapping pairs' => samePairs pairs pairs'
  | enclosing, enclosing => true
  | _, _ => false

def sameItems : List Node → List Node → Bool
  | [], [] => true
  | n :: rest, n' :: rest' => same n n' && sameItems rest rest'
  | _, _ => false

def samePairs : List (Node × Node) → List (Node × Node) → Bool
  | [], [] => true
  | (k, v) :: rest, (k', v') :: rest' => same k k' && same v v' && samePairs rest rest'
  | _, _ => false

end

mutual

theorem same_iff : (n n' : Node) → (same n n' = true ↔ n = n')
  | absent, n' => by cases n' <;> simp [same]
  | scalar .., n' => by cases n' <;> simp [same, and_assoc]
  | sequence items, n' => by cases n' <;> simp [same, sameItems_iff items]
  | mapping pairs, n' => by cases n' <;> simp [same, samePairs_iff pairs]
  | enclosing, n' => by cases n' <;> simp [same]

theorem sameItems_iff :
    (items items' : List Node) → (sameItems items items' = true ↔ items = items')
  | [], items' => by cases items' <;> simp [sameItems]
  | n :: rest, items' => by cases items' <;> simp [sameItems, same_iff n, sameItems_iff rest]

theorem samePairs_iff :
    (pairs pairs' : List (Node × Node)) → (samePairs pairs pairs' = true ↔ pairs = pairs')
  | [], pairs' => by cases pairs' <;> simp [samePairs]
  | (k, v) :: rest, pairs' => by
      cases pairs' <;> simp [samePairs, same_iff k, same_iff v, samePairs_iff rest, Prod.ext_iff]

end

instance : DecidableEq Node := fun n n' => decidable_of_iff _ (same_iff n n')

end Node

end LinkGuard.Yaml
