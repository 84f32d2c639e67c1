/-! # Fields of a text

A text cut at every occurrence of one character. A text without that character is one field.
-/

namespace LinkGuard.Text

def fields (separator : Char) : List Char → List (List Char)
  | [] => [[]]
  | c :: rest =>
    if c = separator then [] :: fields separator rest
    else match fields separator rest with
      | [] => [[c]]
      | first :: others => (c :: first) :: others

/-- The parts before and behind the last occurrence of a character. -/
def splitLast (separator : Char) : List Char → Option (List Char × List Char)
  | [] => none
  | c :: rest =>
    match splitLast separator rest with
    | some (before, behind) => some (c :: before, behind)
    | none => if c = separator then some ([], rest) else none

def bytes (s : String) : List UInt8 := s.toUTF8.data.toList

end LinkGuard.Text
