import LinkGuard.Proofs.Crypto.Hmac
import LinkGuard.Proofs.Token.RoundTrip

/-! # Accepted secrets that stand for refused ones

Secrets are refused by their letters, and sign by the block that they prepare to. No refused secret
has a zero in it, so a zero behind it is enough to be accepted and to sign as before.
-/

namespace LinkGuard

namespace Secret

variable {secret : List UInt8}

theorem isWeak_iff : isWeak secret ↔ secret.all isBlank ∨ secret = placeholder := by
  simp only [isWeak, Bool.or_eq_true, decide_eq_true_eq]

theorem zero_not_mem_of_isWeak (weak : isWeak secret) : 0 ∉ secret := by
  intro zero
  rcases isWeak_iff.mp weak with blank | rfl
  · exact absurd (List.all_eq_true.mp blank 0 zero) (by decide)
  · exact absurd zero (by decide)

end Secret

namespace Token

variable {secret secret' : List UInt8} {identity : String} {expiresAt : Instant}

/-- What is signed for an identity and an instant. -/
def signedFor (identity : String) (expiresAt : Instant) : List UInt8 :=
  message identity (Numeral.ofInt expiresAt.second)

theorem mint_eq_mint_iff (carried : carries identity) :
    mint secret identity expiresAt = mint secret' identity expiresAt ↔
      Hmac.digest secret (signedFor identity expiresAt) =
        Hmac.digest secret' (signedFor identity expiresAt) := by
  simp only [mint, if_pos carried, Except.ok.injEq]
  constructor
  · intro same
    have letters := congrArg String.toList same
    simp only [write, String.toList_append, String.toList_ofList] at letters
    have written := List.append_cancel_left letters
    have read := congrArg Base64Url.decode written
    rw [Base64Url.decode_encode, Base64Url.decode_encode] at read
    exact Option.some.inj read
  · intro same
    exact congrArg (write identity _) same

theorem mint_eq_mint_of_odd (odd : ¬ carries identity) :
    mint secret identity expiresAt = mint secret' identity expiresAt := by
  rw [mint, mint, if_neg odd, if_neg odd]

theorem verify_congr (same : Hmac.prepare secret = Hmac.prepare secret') (token : String)
    (now : Instant) :
    verify secret token now = verify secret' token now := by
  have signatures : signature secret = signature secret' := by
    funext identity expiry
    exact congrArg (Hmac.digestPrepared · _) same
  simp only [verify, signatures]

end Token

namespace Codec

variable {codec : Codec} {secret refused : List UInt8}

/-- The codec mints what is minted under that secret. -/
def ActsAs (codec : Codec) (secret : List UInt8) : Prop :=
  ∀ identity expiresAt, codec.mint identity expiresAt = Token.mint secret identity expiresAt

theorem isWeak_of_refused (weak : Codec.ofSecret refused = .error .weakSecret) :
    Secret.isWeak refused := by
  simp only [ofSecret] at weak
  split at weak
  case isTrue => cases weak
  case isFalse known => exact (Bool.not_eq_false _).mp known

/-- A secret acts as another one if they prepare to one block, and otherwise only by a collision for
    every token. -/
theorem actsAs_iff (made : Codec.ofSecret secret = .ok codec) :
    codec.ActsAs refused ↔ Hmac.prepare secret = Hmac.prepare refused ∨
      ∀ identity expiresAt, Token.carries identity →
        Sha256.Collide (Hmac.outer secret (Token.signedFor identity expiresAt))
          (Hmac.outer refused (Token.signedFor identity expiresAt)) := by
  obtain rfl := Codec.secret_of_ofSecret made
  constructor
  · intro acts
    by_cases alike : Hmac.prepare codec.secret = Hmac.prepare refused
    · exact .inl alike
    · refine .inr fun identity expiresAt carried => ?_
      exact (Hmac.digest_eq_iff_collide alike _).mp
        ((Token.mint_eq_mint_iff carried).mp (acts identity expiresAt))
  · intro same identity expiresAt
    by_cases carried : Token.carries identity
    · refine (Token.mint_eq_mint_iff carried).mpr ?_
      rcases same with alike | collide
      · exact congrArg (Hmac.digestPrepared · _) alike
      · exact (collide identity expiresAt carried).2
    · exact Token.mint_eq_mint_of_odd carried

theorem prepare_eq_iff_of_short (made : Codec.ofSecret secret = .ok codec)
    (weak : Codec.ofSecret refused = .error .weakSecret) (short : secret.length ≤ 64)
    (short' : refused.length ≤ 64) :
    Hmac.prepare secret = Hmac.prepare refused ↔
    ∃ n, 0 < n ∧ secret = refused ++ List.replicate n 0 := by
  rw [Hmac.prepare_eq_iff, Hmac.reduced_of_short short, Hmac.reduced_of_short short']
  have differ : secret ≠ refused := by
    rintro rfl
    rw [made] at weak
    cases weak
  constructor
  · rintro ⟨n, longer⟩
    rcases Nat.eq_zero_or_pos n with rfl | positive
    · simp only [List.replicate_zero, List.append_nil] at longer
      exact absurd (longer.elim id Eq.symm) differ
    · refine ⟨n, positive, longer.resolve_right fun zeros => ?_⟩
      -- A refused secret has no zeros that could be cut off it.
      have zero : (0 : UInt8) ∈ List.replicate n 0 :=
        List.mem_replicate.mpr ⟨Nat.ne_of_gt positive, rfl⟩
      have free := Secret.zero_not_mem_of_isWeak (isWeak_of_refused weak)
      rw [zeros] at free
      exact free (List.mem_append_right _ zero)
  · rintro ⟨n, _, longer⟩
    exact ⟨n, .inl longer⟩

theorem refused_placeholder : Codec.ofSecret Secret.placeholder = .error .weakSecret :=
  dif_neg (by decide)

theorem ofSecret_of_not_isWeak (strong : Secret.isWeak secret = false) :
    Codec.ofSecret secret = .ok ⟨secret, strong⟩ :=
  dif_pos strong

theorem zero_behind_refused (weak : Codec.ofSecret refused = .error .weakSecret)
    (short : refused.length < 64) :
    ∃ codec, Codec.ofSecret (refused ++ [0]) = .ok codec ∧ codec.ActsAs refused := by
  have strong : Secret.isWeak (refused ++ [0]) = false := by
    refine Bool.eq_false_iff.mpr fun known => Secret.zero_not_mem_of_isWeak known ?_
    exact List.mem_append_right _ List.mem_cons_self
  have made := ofSecret_of_not_isWeak strong
  have fits : (refused ++ [0]).length ≤ 64 := by
    rw [List.length_append, List.length_singleton]
    omega
  refine ⟨_, made, (actsAs_iff made).mpr (.inl ?_)⟩
  exact (prepare_eq_iff_of_short made weak fits (Nat.le_of_lt short)).mpr ⟨1, Nat.one_pos, rfl⟩

/-- The codec of an accepted secret acts as a refused one if and only if the two prepare to one
    block, short of a collision in every token. Of secrets that are no longer than a block these are
    the refused one with zeros behind it, so each refused secret that leaves room for one has an
    accepted one that signs as it does; and one that is longer shares its block with its digest. -/
theorem acts_as_refused_iff (refused : List UInt8)
    (weak : Codec.ofSecret refused = .error .weakSecret) :
    (∀ secret codec, Codec.ofSecret secret = .ok codec →
      (codec.ActsAs refused ↔ Hmac.prepare secret = Hmac.prepare refused ∨
        ∀ identity expiresAt, Token.carries identity →
          Sha256.Collide (Hmac.outer secret (Token.signedFor identity expiresAt))
            (Hmac.outer refused (Token.signedFor identity expiresAt))) ∧
      (Hmac.prepare secret = Hmac.prepare refused ↔
        Hmac.SameButZeros (Hmac.reduced secret) (Hmac.reduced refused)) ∧
      (Hmac.prepare secret = Hmac.prepare refused →
        ∀ token now, codec.verify token now = Token.verify refused token now) ∧
      (secret.length ≤ 64 → refused.length ≤ 64 →
        (Hmac.prepare secret = Hmac.prepare refused ↔
          ∃ n, 0 < n ∧ secret = refused ++ List.replicate n 0))) ∧
    (refused.length < 64 → ∃ codec, Codec.ofSecret (refused ++ [0]) = .ok codec ∧
      codec.ActsAs refused) ∧
    (64 < refused.length → Hmac.prepare (Sha256.digest refused) = Hmac.prepare refused) := by
  refine ⟨fun secret codec made => ⟨actsAs_iff made, Hmac.prepare_eq_iff, fun alike token now => ?_,
    prepare_eq_iff_of_short made weak⟩, zero_behind_refused weak, Hmac.prepare_digest⟩
  obtain rfl := Codec.secret_of_ofSecret made
  exact Token.verify_congr alike token now

/-- The placeholder with a zero behind it is accepted. -/
theorem acts_as_refused_iff_for_placeholder :
    Codec.ofSecret Secret.placeholder = .error .weakSecret ∧
      ∃ codec, Codec.ofSecret (Secret.placeholder ++ [0]) = .ok codec ∧
        codec.ActsAs Secret.placeholder := by
  obtain ⟨_, twin, _⟩ := acts_as_refused_iff Secret.placeholder refused_placeholder
  exact ⟨refused_placeholder, twin (by decide)⟩

/-- So it is not true of every accepted secret that it signs as none of the refused ones does. -/
theorem accepted_may_act_as_refused :
    ¬ ∀ (secret refused : List UInt8) (codec : Codec), Codec.ofSecret secret = .ok codec →
      Codec.ofSecret refused = .error .weakSecret → ¬ codec.ActsAs refused := by
  intro never
  obtain ⟨codec, made, acts⟩ := zero_behind_refused refused_placeholder (by decide)
  exact never _ _ codec made refused_placeholder acts

end Codec

end LinkGuard
