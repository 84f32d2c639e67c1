import LinkGuard.Crypto.Hmac
import LinkGuard.Text.Base64Url
import LinkGuard.Text.Fields
import LinkGuard.Time.Instant

/-! # Link tokens

A token is three fields parted by colons: the identity it was minted for, the second it expires in,
and the signature over the other two. Whoever has the secret can say whether a token is genuine
without any record of the tokens minted. The signature is looked at before the expiry, so a forged
expiry is never told from any other damage.
-/

namespace LinkGuard

inductive TokenError where
  /-- The identity holds the character that parts the fields. -/
  | malformedPayload
  /-- Form, signature or expiry is wrong; which of them is not said. -/
  | invalid
  /-- The token is genuine and its second has come. -/
  | expired
  /-- The signing secret is blank or the placeholder. -/
  | weakSecret
deriving DecidableEq

namespace TokenError

def message : TokenError → String
  | malformedPayload => "payload must not contain the ':' delimiter"
  | invalid => "token is invalid or has been tampered with"
  | expired => "token has expired"
  | weakSecret => "signing secret is empty or a known placeholder"

/-- A short tag that may be shown to anyone. -/
def reason : TokenError → String
  | malformedPayload => "malformed_payload"
  | invalid => "invalid_or_tampered"
  | expired => "expired"
  | weakSecret => "weak_secret"

end TokenError

namespace Token

def delimiter : Char := ':'

/-- An identity the token's form can carry. -/
def carries (identity : String) : Bool := !identity.toList.contains delimiter

/-- The signature of the first two fields. -/
def signature (secret : List UInt8) (identity expiry : String) : List UInt8 :=
  Hmac.digest secret (Text.bytes identity ++ Text.bytes (String.singleton delimiter) ++
    Text.bytes expiry)

def write (identity expiry : String) (mac : List UInt8) : String :=
  identity ++ String.singleton delimiter ++ expiry ++ String.singleton delimiter
    ++ String.ofList (Base64Url.encode mac)

/-- Binds `identity` to the second that `expiry` lies in. -/
def mint (secret : List UInt8) (identity : String) (expiry : Instant) : Except TokenError String :=
  if carries identity then
    let second := Numeral.ofInt expiry.second
    .ok (write identity second (signature secret identity second))
  else .error .malformedPayload

/-- The instant that an expiry field names: a signed 64-bit numeral of a second inside the
    calendar. -/
def expiry? (field : List Char) : Option Instant := (Numeral.word? 10 field).bind Instant.ofSecond?

/-- The identity that a token proves at `now`. -/
def verify (secret : List UInt8) (token : String) (now : Instant) : Except TokenError String :=
  match Text.fields delimiter token.toList with
  | [identity, expiry, mac] =>
    if Base64Url.decode mac =
        some (signature secret (String.ofList identity) (String.ofList expiry)) then
      match expiry? expiry with
      | none => .error .invalid
      | some expiresAt =>
        if expiresAt ≤ now then .error .expired else .ok (String.ofList identity)
    else .error .invalid
  | _ => .error .invalid

end Token

end LinkGuard
