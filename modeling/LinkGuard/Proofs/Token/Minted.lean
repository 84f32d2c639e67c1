import LinkGuard.Proofs.Text.Numeral
import LinkGuard.Proofs.Time
import LinkGuard.Proofs.Token.Signed

/-! # Minted tokens handed in

The expiry of a token is a second, written as a numeral and read back from it. What was cut off the
instant that the token was minted for is lost: the token ends where that instant's second begins.
-/

namespace LinkGuard.Token

variable {secret : List UInt8} {token identity : String}

theorem expiry?_second (t : Instant) :
    expiry? (Numeral.ofInt t.second).toList = some t.wholeSecond := by
  have fits : Numeral.fitsWord t.second := by
    have inside := t.fits_second
    simp only [Numeral.fitsWord, Bool.and_eq_true, decide_eq_true_eq]
    omega
  rw [expiry?, Numeral.word?_ofInt fits]
  exact t.ofSecond?_second

theorem carries_second (t : Instant) : carries (Numeral.ofInt t.second) :=
  carries_iff.mpr (Numeral.not_mem_ofInt (by decide) (by decide) _)

theorem verify_of_mint {expiresAt : Instant} (minted : mint secret identity expiresAt = .ok token)
    (now : Instant) :
    verify secret token now =
      if expiresAt.wholeSecond ≤ now then .error .expired else .ok identity := by
  obtain ⟨carried, rfl⟩ := mint_eq_ok_iff.mp minted
  rw [verify_of_signed (signed_write carried (carries_second expiresAt)) now]
  simp only [expiry?_second]

end LinkGuard.Token
