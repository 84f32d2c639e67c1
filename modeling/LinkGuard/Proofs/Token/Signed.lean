import LinkGuard.Proofs.Text.Base64Url
import LinkGuard.Proofs.Text.Fields
import LinkGuard.Token.Basic

/-! # Signed texts

A text that is cut into an identity, an expiry and the one written form of the digest over the two.
Being signed is all that the form of a token asks for: the text is fixed by its first two fields,
and the message that was digested fixes them in turn.
-/

namespace LinkGuard.Token

/-- What is digested for an identity and an expiry. -/
def message (identity expiry : String) : List UInt8 :=
  Text.bytes identity ++ Text.bytes (String.singleton delimiter) ++ Text.bytes expiry

/-- The three fields of a text are an identity, an expiry and the digest of their message, as it is
    written. -/
def Signed (secret : List UInt8) (text identity expiry : String) : Prop :=
  Text.fields delimiter text.toList =
    [identity.toList, expiry.toList,
      Base64Url.encode (Hmac.digest secret (message identity expiry))]

variable {secret : List UInt8} {text identity expiry : String}

theorem mint_eq_ok_iff {token : String} {expiresAt : Instant} :
    mint secret identity expiresAt = .ok token ↔ carries identity ∧
      token = write identity (Numeral.ofInt expiresAt.second)
        (signature secret identity (Numeral.ofInt expiresAt.second)) := by
  simp only [mint]
  split
  case isTrue carried => simp [carried, eq_comm]
  case isFalse odd => simp [odd]

theorem carries_iff : carries identity ↔ delimiter ∉ identity.toList := by
  simp [carries]

/-- The boundary between the fields of a message cannot be moved: it is the first delimiter. -/
theorem message_injective {identity' expiry' : String} (carried : carries identity)
    (carried' : carries identity') (same : message identity expiry = message identity' expiry') :
    identity = identity' ∧ expiry = expiry' := by
  simp only [message, ← Text.bytes_append] at same
  have letters := congrArg String.toList (Text.bytes_injective same)
  simp only [String.toList_append, String.toList_singleton, List.append_assoc,
    List.singleton_append] at letters
  -- Cutting both sides compares what stands before the first delimiter; the rest then cancels.
  have cut := congrArg (Text.fields delimiter) letters
  rw [Text.fields_append (carries_iff.mp carried),
    Text.fields_append (carries_iff.mp carried')] at cut
  have first := (List.cons.inj cut).1
  rw [first] at letters
  have second := (List.cons.inj (List.append_cancel_left letters)).2
  exact ⟨String.toList_inj.mp first, String.toList_inj.mp second⟩

namespace Signed

theorem carries_identity (signed : Signed secret text identity expiry) : carries identity := by
  have part : identity.toList ∈ Text.fields delimiter text.toList := by
    rw [signed]
    exact List.mem_cons_self
  exact carries_iff.mpr (Text.not_mem_of_mem_fields part)

theorem eq_write (signed : Signed secret text identity expiry) :
    text = write identity expiry (signature secret identity expiry) := by
  have whole := Text.intercalate_fields delimiter text.toList
  rw [signed] at whole
  apply String.toList_inj.mp
  rw [← whole]
  simp [write, signature, message, List.intercalate_cons_cons]

end Signed

theorem signed_write (carried : carries identity) (carried' : carries expiry) :
    Signed secret (write identity expiry (signature secret identity expiry)) identity expiry := by
  have free : delimiter ∉ Base64Url.encode (Hmac.digest secret (message identity expiry)) := by
    intro written
    have known := Base64Url.value?_isSome_of_mem_encode written
    exact absurd known (by decide)
  have letters : (write identity expiry (signature secret identity expiry)).toList =
      identity.toList ++ delimiter :: (expiry.toList ++ delimiter ::
        Base64Url.encode (Hmac.digest secret (message identity expiry))) := by
    simp [write, signature, message]
  rw [Signed, letters, Text.fields_append (carries_iff.mp carried),
    Text.fields_append (carries_iff.mp carried'), Text.fields_of_not_mem free]

theorem verify_of_signed (signed : Signed secret text identity expiry) (now : Instant) :
    verify secret text now =
      match expiry? expiry.toList with
      | none => .error .invalid
      | some expiresAt => if expiresAt ≤ now then .error .expired else .ok identity := by
  have genuine : Base64Url.decode
      (Base64Url.encode (Hmac.digest secret (message identity expiry))) =
      some (signature secret identity expiry) :=
    Base64Url.decode_encode _
  rw [Signed] at signed
  cases read : expiry? expiry.toList with
  | none => simp only [verify, signed, String.ofList_toList, if_pos genuine, read]
  | some expiresAt => simp only [verify, signed, String.ofList_toList, if_pos genuine, read]

theorem signed_of_verify {now : Instant} (accepted : verify secret text now ≠ .error .invalid) :
    ∃ identity expiry, Signed secret text identity expiry := by
  simp only [verify] at accepted
  split at accepted
  case h_2 => exact absurd rfl accepted
  case h_1 identity expiry mac cut =>
    split at accepted
    case isFalse => exact absurd rfl accepted
    case isTrue genuine =>
      refine ⟨String.ofList identity, String.ofList expiry, ?_⟩
      rw [Signed, cut, String.toList_ofList, String.toList_ofList,
        Base64Url.decode_eq_some_iff.mp genuine]
      rfl

end LinkGuard.Token
