import LinkGuard.Proofs.Token.Minted
import LinkGuard.Token.Codec

/-! # What a minted token gives back

Every identity that holds no delimiter can be minted for every instant, and the token gives the
identity back up to the second of that instant. Two tokens differ where the identities or those
seconds do, and nowhere else. A codec does the same under the secret that it was made with.
-/

namespace LinkGuard

theorem Codec.secret_of_ofSecret {secret : List UInt8} {codec : Codec}
    (made : Codec.ofSecret secret = .ok codec) : codec.secret = secret := by
  simp only [ofSecret] at made
  split at made
  case isTrue =>
    obtain rfl := Except.ok.inj made
    rfl
  case isFalse => cases made

namespace Token

variable {secret : List UInt8} {identity identity' token token' : String}
  {expiresAt expiresAt' : Instant}

theorem mint_eq_error_iff {e : TokenError} :
    mint secret identity expiresAt = .error e ↔ e = .malformedPayload ∧ ':' ∈ identity.toList := by
  have odd : ':' ∈ identity.toList ↔ ¬ carries identity := by
    rw [carries_iff, Classical.not_not]
    rfl
  rw [odd, mint]
  split
  case isTrue carried => simp [carried]
  case isFalse free => simp [free, eq_comm]

theorem fields_of_mint_eq (minted : mint secret identity expiresAt = .ok token)
    (minted' : mint secret identity' expiresAt' = .ok token) :
    identity = identity' ∧ expiresAt.second = expiresAt'.second := by
  obtain ⟨carried, rfl⟩ := mint_eq_ok_iff.mp minted
  obtain ⟨carried', same⟩ := mint_eq_ok_iff.mp minted'
  have signed : Signed secret _ _ _ := signed_write carried (carries_second expiresAt)
  have signed' : Signed secret _ _ _ := signed_write carried' (carries_second expiresAt')
  rw [← same, Signed, signed, List.cons.injEq, List.cons.injEq] at signed'
  obtain ⟨first, second, _⟩ := signed'
  exact ⟨String.toList_inj.mp first, Numeral.ofInt_inj (String.toList_inj.mp second)⟩

theorem mint_eq_iff (minted : mint secret identity expiresAt = .ok token)
    (minted' : mint secret identity' expiresAt' = .ok token') :
    token = token' ↔ identity = identity' ∧ expiresAt.second = expiresAt'.second := by
  constructor
  · rintro rfl
    exact fields_of_mint_eq minted minted'
  · rintro ⟨rfl, same⟩
    rw [mint, ← same] at minted'
    exact Except.ok.inj (minted.symm.trans minted')

/-- Minting fails only for an identity that holds the delimiter, and says so. Otherwise the token
    proves the identity at any time before the second that it was minted for, and is expired from
    there on. Two tokens under one secret are the same if and only if they are for one identity and
    one second. -/
theorem verify_undoes_mint (secret : List UInt8) (identity : String) (expiresAt : Instant) :
    (∀ e, mint secret identity expiresAt = .error e ↔
      e = .malformedPayload ∧ ':' ∈ identity.toList) ∧
    (':' ∉ identity.toList → ∃ token, mint secret identity expiresAt = .ok token ∧
      ∀ now, verify secret token now =
        if now.nanos < expiresAt.nanos / 1000000000 * 1000000000 then .ok identity
        else .error .expired) ∧
    (∀ identity' expiresAt' token token', mint secret identity expiresAt = .ok token →
      mint secret identity' expiresAt' = .ok token' →
      (token = token' ↔ identity = identity' ∧
        expiresAt.nanos / 1000000000 = expiresAt'.nanos / 1000000000)) ∧
    ∀ codec, Codec.ofSecret secret = .ok codec →
      codec.mint identity expiresAt = mint secret identity expiresAt ∧
      ∀ token now, codec.verify token now = verify secret token now := by
  refine ⟨fun _ => mint_eq_error_iff, fun free => ?_,
    fun identity' expiresAt' token token' minted minted' => ?_, fun codec made => ?_⟩
  · obtain ⟨token, minted⟩ : ∃ token, mint secret identity expiresAt = .ok token :=
      ⟨_, mint_eq_ok_iff.mpr ⟨carries_iff.mpr free, rfl⟩⟩
    refine ⟨token, minted, fun now => ?_⟩
    have begins : expiresAt.wholeSecond.nanos = expiresAt.nanos / 1000000000 * 1000000000 :=
      congrArg (· * 1000000000) expiresAt.second_eq
    rw [verify_of_mint minted, ← begins]
    simp only [Instant.le_iff, ← Int.not_lt, ite_not]
  · rw [mint_eq_iff minted minted', Instant.second_eq, Instant.second_eq]
  · rw [← Codec.secret_of_ofSecret made]
    exact ⟨rfl, fun _ _ => rfl⟩

end Token

end LinkGuard
