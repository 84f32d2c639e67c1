import LinkGuard.Text.Numeral

/-! # Numerals read back

A number written in decimal is read back as that number, with and without a sign. A written number
holds digits only, besides the minus in front of a negative one.
-/

namespace LinkGuard.Numeral

theorem digit?_digit {d : Nat} (small : d < 10) : digit? 10 (digit d) = some d := by
  have all : ∀ e < 10, digit? 10 (digit e) = some e := by decide
  exact all d small

theorem exists_of_mem_digits {n : Nat} {c : Char} (written : c ∈ digits n) :
    ∃ d < 10, c = digit d := by
  induction n using digits.induct with
  | case1 n small =>
      rw [digits, if_pos small, List.mem_singleton] at written
      exact ⟨n, small, written⟩
  | case2 n large ih =>
      rw [digits, if_neg large, List.mem_append, List.mem_singleton] at written
      rcases written with earlier | last
      · exact ih earlier
      · exact ⟨n % 10, Nat.mod_lt n (by decide), last⟩

theorem not_mem_digits {c : Char} (other : digit? 10 c = none) (n : Nat) : c ∉ digits n := by
  intro written
  obtain ⟨d, small, rfl⟩ := exists_of_mem_digits written
  rw [digit?_digit small] at other
  cases other

theorem toList_ofInt_ofNat (n : Nat) : (ofInt (.ofNat n)).toList = digits n := String.toList_ofList

theorem toList_ofInt_negSucc (n : Nat) : (ofInt (.negSucc n)).toList = '-' :: digits (n + 1) := by
  simp [ofInt, ofNat, String.toList_append]

theorem not_mem_ofInt {c : Char} (other : digit? 10 c = none) (sign : c ≠ '-') (n : Int) :
    c ∉ (ofInt n).toList := by
  cases n with
  | ofNat n =>
      rw [toList_ofInt_ofNat]
      exact not_mem_digits other n
  | negSucc n =>
      rw [toList_ofInt_negSucc, List.mem_cons, not_or]
      exact ⟨sign, not_mem_digits other (n + 1)⟩

theorem continue?_append (base value : Nat) (front back : List Char) :
    continue? base value (front ++ back) =
      (continue? base value front).bind fun value => continue? base value back := by
  induction front generalizing value with
  | nil => rfl
  | cons c rest ih =>
      simp only [List.cons_append, continue?]
      cases digit? base c with
      | none => rfl
      | some d => exact ih _

theorem continue?_digits (n : Nat) : continue? 10 0 (digits n) = some n := by
  induction n using digits.induct with
  | case1 n small =>
      rw [digits, if_pos small]
      simp [continue?, digit?_digit small]
  | case2 n large ih =>
      have last := digit?_digit (Nat.mod_lt n (by decide : 10 > 0))
      rw [digits, if_neg large, continue?_append, ih]
      simp only [Option.bind_some, continue?, last, Option.bind_eq_bind, Nat.mul_comm _ 10,
        Nat.div_add_mod]

theorem digits_ne_nil (n : Nat) : digits n ≠ [] := by
  rw [digits]
  split <;> simp

theorem natural?_digits (n : Nat) : natural? 10 (digits n) = some n := by
  obtain ⟨c, rest, written⟩ := List.exists_cons_of_ne_nil (digits_ne_nil n)
  rw [← continue?_digits n, written]
  rfl

theorem signed?_ofInt (n : Int) : signed? 10 (ofInt n).toList = some n := by
  cases n with
  | ofNat n =>
      rw [toList_ofInt_ofNat]
      -- The reader looks for a sign first, and a digit is none.
      have plus : '+' ∉ digits n := not_mem_digits (by decide) n
      have minus : '-' ∉ digits n := not_mem_digits (by decide) n
      have read := natural?_digits n
      unfold signed?
      split
      case h_1 rest written => exact absurd (written ▸ List.mem_cons_self) plus
      case h_2 rest written => exact absurd (written ▸ List.mem_cons_self) minus
      case h_3 => rw [read]; rfl
  | negSucc n =>
      rw [toList_ofInt_negSucc]
      simp only [signed?, natural?_digits, Option.map_some]
      rfl

theorem ofInt_inj {m n : Int} (same : ofInt m = ofInt n) : m = n := by
  have read := signed?_ofInt m
  rw [same, signed?_ofInt] at read
  exact (Option.some.inj read).symm

theorem word?_ofInt {n : Int} (fits : fitsWord n) : word? 10 (ofInt n).toList = some n := by
  simp only [word?, signed?_ofInt, Option.filter_some, fits, if_true]

end LinkGuard.Numeral
