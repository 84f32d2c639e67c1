import Mathlib.Data.List.Induction
import LinkGuard.Proofs.Text.Base64Url
import LinkGuard.Proofs.Text.Written

/-! # The text that a number is written as

Of the many texts that name a number, writing produces one: without a plus sign, without a needless
zero in front, and zero without a sign. A text that is read as a number and written again stays as
it is if and only if it has that form.
-/

namespace LinkGuard.Numeral

variable {text : List Char} {n : Int}

/-- Nothing can be left out in front of the digits. -/
inductive Canonical : List Char → Prop where
  | bare {digits : List Char} (decimal : Decimal digits)
      (unpadded : digits = ['0'] ∨ digits.head? ≠ some '0') :
      Canonical digits
  | minus {digits : List Char} (decimal : Decimal digits) (unpadded : digits.head? ≠ some '0') :
      Canonical ('-' :: digits)

theorem Canonical.sign_or_digit {c : Char} (canonical : Canonical text) (member : c ∈ text) :
    c = '-' ∨ c.isDigit := by
  cases canonical with
  | bare decimal => exact .inr (decimal.2 c member)
  | minus decimal =>
      rcases List.mem_cons.mp member with rfl | member
      · exact .inl rfl
      · exact .inr (decimal.2 c member)

theorem worth_snoc (front : List Char) (c : Char) :
    worth (front ++ [c]) = worth front * 10 + (c.toNat - '0'.toNat) := by
  simp only [worth, List.reverse_append, List.reverse_singleton, List.singleton_append,
    List.map_cons, Nat.ofDigits_cons]
  omega

theorem digit_of_isDigit {c : Char} (decimal : c.isDigit) :
    c.toNat - '0'.toNat < 10 ∧ digit (c.toNat - '0'.toNat) = c := by
  obtain ⟨zero, nine⟩ := isDigit_iff.mp decimal
  have last : c.toNat ≤ 57 := UInt32.le_iff_toNat_le.mp nine
  have first : '0'.toNat = 48 := rfl
  exact ⟨by omega, Base64Url.ofNat_offset zero⟩

theorem worth_pos (decimal : Decimal text) (unpadded : text.head? ≠ some '0') : 0 < worth text := by
  obtain ⟨some, decimal⟩ := decimal
  obtain ⟨c, rest, rfl⟩ := List.exists_cons_of_ne_nil some
  obtain ⟨_, same⟩ := digit_of_isDigit (decimal c List.mem_cons_self)
  have positive : 0 < c.toNat - '0'.toNat := by
    refine Nat.pos_of_ne_zero fun none => unpadded ?_
    rw [none] at same
    rw [List.head?_cons, ← same]
    rfl
  rw [worth_cons]
  exact Nat.add_pos_left (Nat.mul_pos positive (Nat.pow_pos (by decide))) _

/-- The last digit is split off, as writing does it; in front of it there is nothing, or no needless
    zero either. -/
theorem digits_worth (decimal : Decimal text) (unpadded : text = ['0'] ∨ text.head? ≠ some '0') :
    digits (worth text) = text := by
  induction text using List.reverseRecOn with
  | nil => exact absurd rfl decimal.1
  | append_singleton front c ih =>
      obtain ⟨small, same⟩ :=
        digit_of_isDigit (decimal.2 c (List.mem_append_right _ (List.mem_singleton_self c)))
      rw [worth_snoc]
      cases front with
      | nil =>
          have alone : worth [] * 10 + (c.toNat - '0'.toNat) = c.toNat - '0'.toNat := by
            simp [worth]
          rw [alone, digits, if_pos small, same, List.nil_append]
      | cons first more =>
          have decimal' : Decimal (first :: more) :=
            ⟨List.cons_ne_nil _ _, fun d member => decimal.2 d (List.mem_append_left _ member)⟩
          have unpadded' : (first :: more).head? ≠ some '0' := by
            rcases unpadded with zero | unpadded
            · cases more <;> cases zero
            · exact unpadded
          have positive := worth_pos decimal' unpadded'
          have large : ¬ worth (first :: more) * 10 + (c.toNat - '0'.toNat) < 10 := by omega
          have tens : (worth (first :: more) * 10 + (c.toNat - '0'.toNat)) / 10 =
              worth (first :: more) := by omega
          have ones : (worth (first :: more) * 10 + (c.toNat - '0'.toNat)) % 10 =
              c.toNat - '0'.toNat := by omega
          rw [digits, if_neg large, tens, ones, same, ih decimal' (.inr unpadded')]

theorem decimal_digits (n : Nat) : Decimal (digits n) :=
  (natural?_eq_some_iff.mp (natural?_digits n)).1

theorem head_digits {n : Nat} (positive : 0 < n) : (digits n).head? ≠ some '0' := by
  induction n using digits.induct with
  | case1 n small =>
      rw [digits, if_pos small]
      have all : ∀ d < 10, 0 < d → [digit d].head? ≠ some '0' := by decide
      exact all n small positive
  | case2 n large ih =>
      obtain ⟨c, rest, written⟩ := List.exists_cons_of_ne_nil (digits_ne_nil (n / 10))
      have front := ih (Nat.div_pos (Nat.not_lt.mp large) (by decide))
      rw [digits, if_neg large, written]
      rwa [written] at front

theorem canonical_ofInt (n : Int) : Canonical (ofInt n).toList := by
  cases n with
  | ofNat n =>
      rw [toList_ofInt_ofNat]
      refine .bare (decimal_digits n) ?_
      cases n with
      | zero => exact .inl (by rw [digits]; rfl)
      | succ n => exact .inr (head_digits n.succ_pos)
  | negSucc n =>
      rw [toList_ofInt_negSucc]
      exact .minus (decimal_digits (n + 1)) (head_digits n.succ_pos)

theorem toList_ofInt_neg (decimal : Decimal text) (unpadded : text.head? ≠ some '0') :
    (ofInt (-(worth text : Int))).toList = '-' :: text := by
  obtain ⟨m, succ⟩ := Nat.exists_eq_succ_of_ne_zero (worth_pos decimal unpadded).ne'
  have negative : -(worth text : Int) = .negSucc m := by rw [succ]; rfl
  rw [negative, toList_ofInt_negSucc, ← Nat.succ_eq_add_one, ← succ,
    digits_worth decimal (.inr unpadded)]

theorem toList_ofInt_eq_iff (named : Names text n) : (ofInt n).toList = text ↔ Canonical text := by
  constructor
  · rintro rfl
    exact canonical_ofInt n
  · intro canonical
    cases canonical with
    | bare decimal unpadded =>
        cases named with
        | bare => exact (toList_ofInt_ofNat _).trans (digits_worth decimal unpadded)
        | plus => exact absurd decimal (not_decimal_cons (by decide) _)
        | minus => exact absurd decimal (not_decimal_cons (by decide) _)
    | minus decimal unpadded =>
        cases named with
        | bare decimal' => exact absurd decimal' (not_decimal_cons (by decide) _)
        | minus => exact toList_ofInt_neg decimal unpadded

end LinkGuard.Numeral
