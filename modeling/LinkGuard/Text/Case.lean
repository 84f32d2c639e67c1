/-! # Letter case

Words are compared without regard to the case of the letters a to z. The sign of the kelvin is one
of these letters too: it is a capital K.
-/

namespace LinkGuard.Text

def lowerChar (c : Char) : Char := if c = '\u212a' then 'k' else c.toLower

def lower (s : String) : String := String.ofList (s.toList.map lowerChar)

end LinkGuard.Text
