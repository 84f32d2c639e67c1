import LinkGuard.Token.Basic

/-! # Codecs

A codec holds the one secret of a deployment. It refuses a secret of blanks only, the empty one
among them, and the placeholder that sample settings carry.
-/

namespace LinkGuard

namespace Secret

/-- The blanks of ASCII, without the vertical tab. -/
def isBlank (b : UInt8) : Bool := b = 0x20 || b = 0x09 || b = 0x0a || b = 0x0c || b = 0x0d

/-- The secret that nobody may sign with. -/
def placeholder : List UInt8 := Text.bytes "changeme"

def isWeak (secret : List UInt8) : Bool := secret.all isBlank || secret = placeholder

def ofRandom (bytes : List UInt8) : String := String.ofList (Base64Url.encode bytes)

def size : Nat := 32

end Secret

structure Codec where
  secret : List UInt8
  strong : Secret.isWeak secret = false

namespace Codec

def ofSecret (secret : List UInt8) : Except TokenError Codec :=
  if h : Secret.isWeak secret = false then .ok ⟨secret, h⟩ else .error .weakSecret

def mint (codec : Codec) (identity : String) (expiry : Instant) : Except TokenError String :=
  Token.mint codec.secret identity expiry

def verify (codec : Codec) (token : String) (now : Instant) : Except TokenError String :=
  Token.verify codec.secret token now

/-- What may be logged of a codec. -/
def summary (_ : Codec) : String := "TokenCodec \x7b secret: \"<redacted>\" \x7d"

end Codec

end LinkGuard
