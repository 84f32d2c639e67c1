import LinkGuard.Crypto.Sha256

/-! # Keyed digests

A message digest under a key. A key longer than a block is digested first; the key is then filled up
with zeros to one block, so two keys that prepare to the same block give the same digests.
-/

namespace LinkGuard.Hmac

/-- The one block that stands for a key. -/
def prepare (key : List UInt8) : List UInt8 :=
  let short := if 64 < key.length then Sha256.digest key else key
  short ++ List.replicate (64 - short.length) 0

/-- The digest under a key that has been prepared. -/
def digestPrepared (block message : List UInt8) : List UInt8 :=
  let inner := Sha256.digest (block.map (· ^^^ 0x36) ++ message)
  Sha256.digest (block.map (· ^^^ 0x5c) ++ inner)

def digest (key message : List UInt8) : List UInt8 := digestPrepared (prepare key) message

end LinkGuard.Hmac
