import Mathlib.Data.List.Basic
import LinkGuard.Crypto.Hmac

/-! # Keys that give the same digests

A key comes into a digest as one block. Keys that prepare to one block are the same key to whoever
sees only digests, and keys of different blocks agree on a message only where two different texts
have the one digest.
-/

namespace LinkGuard

namespace Sha256

/-- Two texts are different and have the same digest. -/
def Collide (a b : List UInt8) : Prop := a ≠ b ∧ digest a = digest b

theorem length_digest (message : List UInt8) : (digest message).length = 32 := rfl

end Sha256

namespace Hmac

variable {a b key key' : List UInt8}

/-- One of the texts is the other with zeros behind it. -/
def SameButZeros (a b : List UInt8) : Prop :=
  ∃ n, a = b ++ List.replicate n 0 ∨ b = a ++ List.replicate n 0

/-- What is filled up with zeros to make a block of a key. -/
def reduced (key : List UInt8) : List UInt8 := if 64 < key.length then Sha256.digest key else key

/-- What is digested last for a message under a key. -/
def outer (key message : List UInt8) : List UInt8 :=
  (prepare key).map (· ^^^ 0x5c) ++ Sha256.digest ((prepare key).map (· ^^^ 0x36) ++ message)

theorem digest_eq (key message : List UInt8) :
    digest key message = Sha256.digest (outer key message) := rfl

theorem reduced_of_short (short : key.length ≤ 64) : reduced key = key :=
  if_neg (Nat.not_lt.mpr short)

theorem reduced_of_long (long : 64 < key.length) : reduced key = Sha256.digest key := if_pos long

theorem prepare_eq (key : List UInt8) :
    prepare key = reduced key ++ List.replicate (64 - (reduced key).length) 0 := rfl

theorem length_reduced (key : List UInt8) : (reduced key).length ≤ 64 := by
  rcases Nat.lt_or_ge 64 key.length with long | short
  · rw [reduced_of_long long, Sha256.length_digest]
    decide
  · rw [reduced_of_short short]
    exact short

theorem length_prepare (key : List UInt8) : (prepare key).length = 64 := by
  have fits := length_reduced key
  rw [prepare_eq, List.length_append, List.length_replicate]
  omega

theorem prepare_digest (long : 64 < key.length) : prepare (Sha256.digest key) = prepare key := by
  have short : (Sha256.digest key).length ≤ 64 := by
    rw [Sha256.length_digest]
    decide
  rw [prepare_eq, prepare_eq, reduced_of_short short, reduced_of_long long]

theorem fill_of_longer {n : Nat} (longer : a = b ++ List.replicate n 0) (fits : a.length ≤ 64) :
    a ++ List.replicate (64 - a.length) 0 = b ++ List.replicate (64 - b.length) 0 := by
  have lengths := congrArg List.length longer
  rw [List.length_append, List.length_replicate] at lengths
  have rest : 64 - b.length = n + (64 - a.length) := by omega
  rw [rest, ← List.replicate_append_replicate, ← List.append_assoc, ← longer]

theorem longer_of_fill {m n : Nat} (longer : b.length ≤ a.length)
    (same : a ++ List.replicate m (0 : UInt8) = b ++ List.replicate n 0) :
    a = b ++ List.replicate (a.length - b.length) 0 := by
  have cut := congrArg (List.take a.length) same
  have rest : a.length - b.length ≤ n := by
    have lengths := congrArg List.length same
    simp only [List.length_append, List.length_replicate] at lengths
    omega
  rw [List.take_left, List.take_append, List.take_of_length_le longer, List.take_replicate,
    Nat.min_eq_left rest] at cut
  exact cut

/-- Two keys prepare to one block if and only if they differ, once the long ones are digested, in
    zeros at their end. -/
theorem prepare_eq_iff :
    prepare key = prepare key' ↔ SameButZeros (reduced key) (reduced key') := by
  constructor
  · intro same
    rw [prepare_eq, prepare_eq] at same
    rcases Nat.le_total (reduced key').length (reduced key).length with longer | longer
    · exact ⟨_, .inl (longer_of_fill longer same)⟩
    · exact ⟨_, .inr (longer_of_fill longer same.symm)⟩
  · rintro ⟨n, longer | longer⟩
    · exact fill_of_longer longer (length_reduced key)
    · exact (fill_of_longer longer (length_reduced key')).symm

/-- Keys of different blocks agree on a message only by a collision. -/
theorem digest_eq_iff_collide (apart : prepare key ≠ prepare key') (message : List UInt8) :
    digest key message = digest key' message ↔
    Sha256.Collide (outer key message) (outer key' message) := by
  rw [digest_eq, digest_eq]
  refine ⟨fun same => ⟨fun alike => apart ?_, same⟩, fun collide => collide.2⟩
  have masked := List.append_inj_left alike
    (by rw [List.length_map, List.length_map, length_prepare, length_prepare])
  exact List.map_injective_iff.mpr (fun _ _ => (UInt8.xor_left_inj _).mp) masked

end Hmac

end LinkGuard
