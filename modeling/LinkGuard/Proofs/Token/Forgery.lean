import LinkGuard.Proofs.Token.Signed

/-! # Forgeries

A text that is not simply invalid is a token that was minted, or it carries the digest of a message
that none was minted for. Nothing can be had from minted tokens by writing their digest in another
way, by moving the boundary between their fields or by putting fields of several together.
-/

namespace LinkGuard.Token

variable {secret : List UInt8} {token text identity expiry : String}

/-- A signed text is the only one for its message, so it is the token that was minted for it. -/
theorem eq_of_mint {identity' : String} {expiresAt : Instant}
    (signed : Signed secret text identity expiry)
    (minted : mint secret identity' expiresAt = .ok token)
    (same : message identity' (Numeral.ofInt expiresAt.second) = message identity expiry) :
    text = token := by
  obtain ⟨carried, rfl⟩ := mint_eq_ok_iff.mp minted
  obtain ⟨rfl, rfl⟩ := message_injective carried signed.carries_identity same
  exact signed.eq_write

/-- Take any tokens minted under a secret. A text that is accepted, now or before it expired, is one
    of them, or it carries the digest of a message that none of them was minted for. -/
theorem forgery_needs_digest (secret : List UInt8) (minted : List String) (now : Instant)
    (text : String) (accepted : verify secret text now ≠ .error .invalid) :
    text ∈ minted ∨ ∃ identity expiry, Signed secret text identity expiry ∧
      ∀ token ∈ minted, ∀ identity' expiresAt, mint secret identity' expiresAt = .ok token →
        message identity' (Numeral.ofInt expiresAt.second) ≠ message identity expiry := by
  obtain ⟨identity, expiry, signed⟩ := signed_of_verify accepted
  by_cases among : text ∈ minted
  · exact .inl among
  · refine .inr ⟨identity, expiry, signed, ?_⟩
    intro token member identity' expiresAt mintedFor same
    have here := eq_of_mint signed mintedFor same
    rw [here] at among
    exact among member

/-- A text that names the second of a minted token with a sign is accepted only for a digest of its
    own. -/
theorem forgery_needs_digest_of_sign :
    let token := write "a" "0" (signature [] "a" "0")
    let text := write "a" "+0" (signature [] "a" "+0")
    mint [] "a" .epoch = .ok token ∧ verify [] text .epoch ≠ .error .invalid ∧
      (text ∈ [token] ∨ ∃ identity expiry, Signed [] text identity expiry ∧
        ∀ token' ∈ [token], ∀ identity' expiresAt, mint [] identity' expiresAt = .ok token' →
          message identity' (Numeral.ofInt expiresAt.second) ≠ message identity expiry) := by
  intro token text
  have minted : mint [] "a" .epoch = .ok token := by
    have second : Numeral.ofInt Instant.epoch.second = "0" := by
      show String.ofList (Numeral.digits 0) = "0"
      rw [Numeral.digits, if_pos (by decide)]
      rfl
    rw [mint_eq_ok_iff, second]
    exact ⟨by decide, rfl⟩
  have signed : Signed [] text "a" "+0" := signed_write (by decide) (by decide)
  have accepted : verify [] text .epoch ≠ .error .invalid := by
    have read : expiry? "+0".toList = some .epoch := by decide
    simp only [verify_of_signed signed, read, if_pos (show Instant.epoch ≤ Instant.epoch by decide)]
    nofun
  exact ⟨minted, accepted, forgery_needs_digest [] [token] .epoch text accepted⟩

end LinkGuard.Token
