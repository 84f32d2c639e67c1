import LinkGuard.Text.Base64Url

/-! # One written form

Reading undoes writing, and the strict reader accepts nothing that writing does not produce: a byte
string has exactly one text.
-/

namespace LinkGuard.Base64Url

theorem value?_letter {n : Nat} (small : n < 64) : value? (letter n) = some n := by
  have all : ∀ n : Fin 64, value? (letter n) = some n.val := by decide
  exact all ⟨n, small⟩

theorem ofNat_offset {first c : Char} (behind : first ≤ c) :
    Char.ofNat (first.toNat + (c.toNat - first.toNat)) = c := by
  have order : first.toNat ≤ c.toNat := UInt32.le_iff_toNat_le.mp behind
  rw [Nat.add_sub_cancel' order, Char.ofNat_toNat]

theorem letter_of_value? {c : Char} {n : Nat} (known : value? c = some n) :
    n < 64 ∧ letter n = c := by
  simp only [value?] at known
  split at known
  case isTrue upper =>
    obtain rfl := Option.some.inj known
    have bound : c.toNat ≤ 90 := UInt32.le_iff_toNat_le.mp upper.2
    have first : 'A'.toNat = 65 := rfl
    have inRun : c.toNat - 'A'.toNat < 26 := by omega
    exact ⟨by omega, by rw [letter, if_pos inRun, ofNat_offset upper.1]⟩
  split at known
  case isTrue lower =>
    obtain rfl := Option.some.inj known
    have bound : c.toNat ≤ 122 := UInt32.le_iff_toNat_le.mp lower.2
    have first : 'a'.toNat = 97 := rfl
    have behind : ¬ c.toNat - 'a'.toNat + 26 < 26 := by omega
    have inRun : c.toNat - 'a'.toNat + 26 < 52 := by omega
    exact ⟨by omega, by
      rw [letter, if_neg behind, if_pos inRun, Nat.add_sub_cancel, ofNat_offset lower.1]⟩
  split at known
  case isTrue decimal =>
    obtain rfl := Option.some.inj known
    have bound : c.toNat ≤ 57 := UInt32.le_iff_toNat_le.mp decimal.2
    have first : '0'.toNat = 48 := rfl
    have behind : ¬ c.toNat - '0'.toNat + 52 < 26 := by omega
    have behind' : ¬ c.toNat - '0'.toNat + 52 < 52 := by omega
    have inRun : c.toNat - '0'.toNat + 52 < 62 := by omega
    exact ⟨by omega, by
      rw [letter, if_neg behind, if_neg behind', if_pos inRun, Nat.add_sub_cancel,
        ofNat_offset decimal.1]⟩
  split at known
  case isTrue dash =>
    obtain rfl := Option.some.inj known
    exact ⟨by decide, dash.symm⟩
  split at known
  case isTrue underscore =>
    obtain rfl := Option.some.inj known
    exact ⟨by decide, underscore.symm⟩
  case isFalse => cases known

theorem ofNat_eq {a : UInt8} {n : Nat} (same : n = a.toNat) : UInt8.ofNat n = a := by
  rw [same, UInt8.ofNat_toNat]

theorem decode_encode (bytes : List UInt8) : decode (encode bytes) = some bytes := by
  induction bytes using encode.induct with
  | case1 => rfl
  | case2 a =>
      have byte := a.toNat_lt
      simp only [encode, decode]
      rw [value?_letter (by omega), value?_letter (by omega)]
      simp only [Option.bind_eq_bind, Option.bind_some]
      rw [if_pos (by omega), ofNat_eq (a := a) (by omega)]
  | case3 a b =>
      have byte := a.toNat_lt
      have byte' := b.toNat_lt
      simp only [encode, decode]
      rw [value?_letter (by omega), value?_letter (by omega), value?_letter (by omega)]
      simp only [Option.bind_eq_bind, Option.bind_some]
      rw [if_pos (by omega), ofNat_eq (a := a) (by omega), ofNat_eq (a := b) (by omega)]
  | case4 a b c rest ih =>
      have byte := a.toNat_lt
      have byte' := b.toNat_lt
      have byte'' := c.toNat_lt
      simp only [encode, decode]
      rw [value?_letter (by omega), value?_letter (by omega), value?_letter (by omega),
        value?_letter (by omega), ih]
      simp only [Option.bind_eq_bind, Option.bind_some]
      rw [ofNat_eq (a := a) (by omega), ofNat_eq (a := b) (by omega), ofNat_eq (a := c) (by omega)]

theorem toNat_ofNat {n : Nat} (small : n < 256) : (UInt8.ofNat n).toNat = n := by
  rw [UInt8.toNat_ofNat', Nat.mod_eq_of_lt small]

section Sextets

variable {x y z w : Nat}

theorem encode_pair (smallX : x < 64) (smallY : y < 64) (unused : y % 16 = 0) :
    encode [UInt8.ofNat (x * 4 + y / 16)] = [letter x, letter y] := by
  have byte : (UInt8.ofNat (x * 4 + y / 16)).toNat = x * 4 + y / 16 := toNat_ofNat (by omega)
  have high : (x * 4 + y / 16) / 4 = x := by omega
  have low : (x * 4 + y / 16) % 4 * 16 = y := by omega
  simp only [encode, byte, high, low]

theorem encode_triple (smallX : x < 64) (smallY : y < 64) (smallZ : z < 64) (unused : z % 4 = 0) :
    encode [UInt8.ofNat (x * 4 + y / 16), UInt8.ofNat (y % 16 * 16 + z / 4)] =
      [letter x, letter y, letter z] := by
  have byte : (UInt8.ofNat (x * 4 + y / 16)).toNat = x * 4 + y / 16 := toNat_ofNat (by omega)
  have byte' : (UInt8.ofNat (y % 16 * 16 + z / 4)).toNat = y % 16 * 16 + z / 4 :=
    toNat_ofNat (by omega)
  have high : (x * 4 + y / 16) / 4 = x := by omega
  have middle : (x * 4 + y / 16) % 4 * 16 + (y % 16 * 16 + z / 4) / 16 = y := by omega
  have low : (y % 16 * 16 + z / 4) % 16 * 4 = z := by omega
  simp only [encode, byte, byte', high, middle, low]

theorem encode_group (smallX : x < 64) (smallY : y < 64) (smallZ : z < 64) (smallW : w < 64)
    (rest : List UInt8) :
    encode (UInt8.ofNat (x * 4 + y / 16) :: UInt8.ofNat (y % 16 * 16 + z / 4) ::
        UInt8.ofNat (z % 4 * 64 + w) :: rest) =
      letter x :: letter y :: letter z :: letter w :: encode rest := by
  have byte : (UInt8.ofNat (x * 4 + y / 16)).toNat = x * 4 + y / 16 := toNat_ofNat (by omega)
  have byte' : (UInt8.ofNat (y % 16 * 16 + z / 4)).toNat = y % 16 * 16 + z / 4 :=
    toNat_ofNat (by omega)
  have byte'' : (UInt8.ofNat (z % 4 * 64 + w)).toNat = z % 4 * 64 + w := toNat_ofNat (by omega)
  have high : (x * 4 + y / 16) / 4 = x := by omega
  have upper : (x * 4 + y / 16) % 4 * 16 + (y % 16 * 16 + z / 4) / 16 = y := by omega
  have lower : (y % 16 * 16 + z / 4) % 16 * 4 + (z % 4 * 64 + w) / 64 = z := by omega
  have low : (z % 4 * 64 + w) % 64 = w := by omega
  simp only [encode, byte, byte', byte'', high, upper, lower, low]

end Sextets

theorem encode_of_decode {text : List Char} {bytes : List UInt8} (read : decode text = some bytes) :
    encode bytes = text := by
  induction text using decode.induct generalizing bytes with
  | case1 =>
      obtain rfl := Option.some.inj read
      rfl
  | case2 => cases read
  | case3 p q =>
      simp only [decode, Option.bind_eq_bind, Option.bind_eq_some_iff] at read
      obtain ⟨x, first, y, second, read⟩ := read
      split at read
      case isFalse => cases read
      case isTrue unused =>
        obtain rfl := Option.some.inj read
        obtain ⟨smallX, rfl⟩ := letter_of_value? first
        obtain ⟨smallY, rfl⟩ := letter_of_value? second
        exact encode_pair smallX smallY unused
  | case4 p q r =>
      simp only [decode, Option.bind_eq_bind, Option.bind_eq_some_iff] at read
      obtain ⟨x, first, y, second, z, third, read⟩ := read
      split at read
      case isFalse => cases read
      case isTrue unused =>
        obtain rfl := Option.some.inj read
        obtain ⟨smallX, rfl⟩ := letter_of_value? first
        obtain ⟨smallY, rfl⟩ := letter_of_value? second
        obtain ⟨smallZ, rfl⟩ := letter_of_value? third
        exact encode_triple smallX smallY smallZ unused
  | case5 p q r s rest ih =>
      simp only [decode, Option.bind_eq_bind, Option.bind_eq_some_iff] at read
      obtain ⟨x, first, y, second, z, third, w, fourth, tail, readRest, read⟩ := read
      obtain rfl := Option.some.inj read
      obtain ⟨smallX, rfl⟩ := letter_of_value? first
      obtain ⟨smallY, rfl⟩ := letter_of_value? second
      obtain ⟨smallZ, rfl⟩ := letter_of_value? third
      obtain ⟨smallW, rfl⟩ := letter_of_value? fourth
      rw [encode_group smallX smallY smallZ smallW, ih readRest]

theorem decode_eq_some_iff {text : List Char} {bytes : List UInt8} :
    decode text = some bytes ↔ text = encode bytes := by
  constructor
  · intro read
    exact (encode_of_decode read).symm
  · rintro rfl
    exact decode_encode bytes

theorem value?_isSome_of_mem_encode {bytes : List UInt8} {c : Char} (written : c ∈ encode bytes) :
    (value? c).isSome := by
  have known {n : Nat} (small : n < 64) : (value? (letter n)).isSome := by
    rw [value?_letter small, Option.isSome_some]
  induction bytes using encode.induct with
  | case1 => cases written
  | case2 a =>
      have byte := a.toNat_lt
      simp only [encode, List.mem_cons, List.not_mem_nil, or_false] at written
      rcases written with rfl | rfl
      · exact known (by omega)
      · exact known (by omega)
  | case3 a b =>
      have byte := a.toNat_lt
      have byte' := b.toNat_lt
      simp only [encode, List.mem_cons, List.not_mem_nil, or_false] at written
      rcases written with rfl | rfl | rfl
      · exact known (by omega)
      · exact known (by omega)
      · exact known (by omega)
  | case4 a b c rest ih =>
      have byte := a.toNat_lt
      have byte' := b.toNat_lt
      have byte'' := c.toNat_lt
      simp only [encode, List.mem_cons] at written
      rcases written with rfl | rfl | rfl | rfl | written
      · exact known (by omega)
      · exact known (by omega)
      · exact known (by omega)
      · exact known (by omega)
      · exact ih written

end LinkGuard.Base64Url
