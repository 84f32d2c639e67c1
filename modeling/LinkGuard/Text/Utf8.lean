/-! # Text out of bytes

Bytes are read as characters of one to four bytes. Where they are none, the longest run that could
have begun one becomes a single replacement character, and reading goes on behind it.
-/

namespace LinkGuard.Text

def replacement : Char := '\ufffd'

/-- A character of which bytes are missing: how many, the value so far, and the bounds of the next
    byte. -/
structure Begun where
  missing : Nat
  value : Nat
  low : Nat
  high : Nat

/-- What a first byte begins. -/
def Begun.start? (b : Nat) : Option Begun :=
  if 0xc2 ≤ b ∧ b ≤ 0xdf then some ⟨1, b - 0xc0, 0x80, 0xbf⟩
  else if 0xe0 ≤ b ∧ b ≤ 0xef then
    some ⟨2, b - 0xe0, if b = 0xe0 then 0xa0 else 0x80, if b = 0xed then 0x9f else 0xbf⟩
  else if 0xf0 ≤ b ∧ b ≤ 0xf4 then
    some ⟨3, b - 0xf0, if b = 0xf0 then 0x90 else 0x80, if b = 0xf4 then 0x8f else 0xbf⟩
  else none

/-- Reads on from what has been begun. -/
def decodeFrom : Option Begun → List UInt8 → List Char
  | none, [] => []
  | some _, [] => [replacement]
  | begun, byte :: rest =>
    let b := byte.toNat
    let fresh :=
      if b < 0x80 then Char.ofNat b :: decodeFrom none rest
      else match Begun.start? b with
        | some p => decodeFrom (some p) rest
        | none => replacement :: decodeFrom none rest
    match begun with
    | none => fresh
    | some p =>
      if p.low ≤ b ∧ b ≤ p.high then
        let value := p.value * 64 + (b - 0x80)
        if p.missing = 1 then Char.ofNat value :: decodeFrom none rest
        else decodeFrom (some ⟨p.missing - 1, value, 0x80, 0xbf⟩) rest
      else replacement :: fresh

def ofBytes (bytes : List UInt8) : String := String.ofList (decodeFrom none bytes)

end LinkGuard.Text
