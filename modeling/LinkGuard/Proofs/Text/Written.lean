import Mathlib.Data.Nat.Digits.Defs
import LinkGuard.Proofs.Text.Numeral

/-! # What reads as a number

The texts that the readers take for a number, said without the readers: decimal digits, with a sign
in front of them where one may stand. Leading zeros are digits like others, so a number has many
texts, but a text only one number.
-/

namespace LinkGuard.Numeral

/-- One or more of the ten digits. -/
def Decimal (text : List Char) : Prop := text ≠ [] ∧ ∀ c ∈ text, c.isDigit

/-- What digits are worth, the most significant first. -/
def worth (text : List Char) : Nat :=
  Nat.ofDigits 10 (text.reverse.map fun c => c.toNat - '0'.toNat)

inductive Names : List Char → Int → Prop where
  | bare {digits : List Char} (decimal : Decimal digits) : Names digits (worth digits)
  | plus {digits : List Char} (decimal : Decimal digits) : Names ('+' :: digits) (worth digits)
  | minus {digits : List Char} (decimal : Decimal digits) : Names ('-' :: digits) (-worth digits)

/-- One or more digits, which a plus sign may precede. -/
inductive Counts : List Char → Nat → Prop where
  | bare {digits : List Char} (decimal : Decimal digits) : Counts digits (worth digits)
  | plus {digits : List Char} (decimal : Decimal digits) : Counts ('+' :: digits) (worth digits)

theorem worth_cons (c : Char) (rest : List Char) :
    worth (c :: rest) = (c.toNat - '0'.toNat) * 10 ^ rest.length + worth rest := by
  simp only [worth, List.reverse_cons, List.map_append, List.map_cons, List.map_nil,
    Nat.ofDigits_append, Nat.ofDigits_singleton, List.length_map, List.length_reverse]
  rw [Nat.add_comm, Nat.mul_comm]

theorem isDigit_iff {c : Char} : c.isDigit ↔ '0' ≤ c ∧ c ≤ '9' := by
  simp only [Char.isDigit_iff_toNat]
  exact Iff.and UInt32.le_iff_toNat_le.symm UInt32.le_iff_toNat_le.symm

theorem digit?_eq_some_iff {c : Char} {d : Nat} :
    digit? 10 c = some d ↔ c.isDigit ∧ c.toNat - '0'.toNat = d := by
  rw [isDigit_iff]
  by_cases decimal : '0' ≤ c ∧ c ≤ '9'
  · have last : c.toNat ≤ 57 := UInt32.le_iff_toNat_le.mp decimal.2
    have zero : '0'.toNat = 48 := rfl
    have small : c.toNat - '0'.toNat < 10 := by omega
    simp only [digit?, Option.filter_some, small, decide_true, if_true, Option.some.injEq, decimal,
      and_self, true_and]
  · have none : digit? 10 c = none := by
      simp only [digit?, if_neg decimal]
      split
      case isTrue => simp
      case isFalse => split <;> simp
    simp only [none, reduceCtorEq, decimal, false_and]

theorem continue?_of_decimal {text : List Char} (decimal : ∀ c ∈ text, c.isDigit) (value : Nat) :
    continue? 10 value text = some (value * 10 ^ text.length + worth text) := by
  induction text generalizing value with
  | nil => simp [continue?, worth]
  | cons c rest ih =>
      have read := digit?_eq_some_iff.mpr ⟨decimal c List.mem_cons_self, rfl⟩
      simp only [continue?, read, Option.bind_eq_bind, Option.bind_some]
      rw [ih (fun d member => decimal d (List.mem_cons_of_mem c member)), worth_cons,
        List.length_cons, Nat.pow_succ]
      simp only [Option.some.injEq]
      ring

theorem decimal_of_continue? {text : List Char} {value n : Nat}
    (read : continue? 10 value text = some n) :
    ∀ c ∈ text, c.isDigit := by
  induction text generalizing value with
  | nil => exact fun _ none => by cases none
  | cons c rest ih =>
      simp only [continue?, Option.bind_eq_bind, Option.bind_eq_some_iff] at read
      obtain ⟨d, first, later⟩ := read
      intro e member
      rcases List.mem_cons.mp member with rfl | member
      · exact (digit?_eq_some_iff.mp first).1
      · exact ih later e member

theorem natural?_eq_some_iff {text : List Char} {n : Nat} :
    natural? 10 text = some n ↔ Decimal text ∧ worth text = n := by
  cases text with
  | nil => simp [natural?, Decimal]
  | cons c rest =>
      have whole {n : Nat} (decimal : ∀ d ∈ c :: rest, d.isDigit) :
          natural? 10 (c :: rest) = some n ↔ worth (c :: rest) = n := by
        rw [natural?, continue?_of_decimal decimal, Nat.zero_mul, Nat.zero_add, Option.some.injEq]
      constructor
      · intro read
        have decimal : ∀ d ∈ c :: rest, d.isDigit := decimal_of_continue? read
        exact ⟨⟨List.cons_ne_nil _ _, decimal⟩, (whole decimal).mp read⟩
      · rintro ⟨⟨_, decimal⟩, same⟩
        exact (whole decimal).mpr same

theorem not_decimal_cons {c : Char} (other : c.isDigit = false) (rest : List Char) :
    ¬ Decimal (c :: rest) := by
  rintro ⟨_, decimal⟩
  rw [decimal c List.mem_cons_self] at other
  cases other

theorem unsigned?_eq_some_iff {text : List Char} {n : Nat} :
    unsigned? 10 text = some n ↔ Counts text n := by
  constructor
  · intro read
    unfold unsigned? at read
    split at read
    case h_1 rest =>
      obtain ⟨decimal, rfl⟩ := natural?_eq_some_iff.mp read
      exact .plus decimal
    case h_2 =>
      obtain ⟨decimal, rfl⟩ := natural?_eq_some_iff.mp read
      exact .bare decimal
  · intro counts
    cases counts with
    | plus decimal => exact natural?_eq_some_iff.mpr ⟨decimal, rfl⟩
    | bare decimal =>
        unfold unsigned?
        split
        case h_1 => exact absurd decimal (not_decimal_cons (by decide) _)
        case h_2 => exact natural?_eq_some_iff.mpr ⟨decimal, rfl⟩

theorem signed?_eq_some_iff {text : List Char} {n : Int} :
    signed? 10 text = some n ↔ Names text n := by
  constructor
  · intro read
    unfold signed? at read
    split at read
    case h_1 rest =>
      obtain ⟨m, digits, rfl⟩ := Option.map_eq_some_iff.mp read
      obtain ⟨decimal, rfl⟩ := natural?_eq_some_iff.mp digits
      exact .plus decimal
    case h_2 rest =>
      obtain ⟨m, digits, rfl⟩ := Option.map_eq_some_iff.mp read
      obtain ⟨decimal, rfl⟩ := natural?_eq_some_iff.mp digits
      exact .minus decimal
    case h_3 =>
      obtain ⟨m, digits, rfl⟩ := Option.map_eq_some_iff.mp read
      obtain ⟨decimal, rfl⟩ := natural?_eq_some_iff.mp digits
      exact .bare decimal
  · intro named
    cases named with
    | plus decimal => simp only [signed?, natural?_eq_some_iff.mpr ⟨decimal, rfl⟩]; rfl
    | minus decimal => simp only [signed?, natural?_eq_some_iff.mpr ⟨decimal, rfl⟩]; rfl
    | bare decimal =>
        unfold signed?
        split
        case h_1 => exact absurd decimal (not_decimal_cons (by decide) _)
        case h_2 => exact absurd decimal (not_decimal_cons (by decide) _)
        case h_3 => rw [natural?_eq_some_iff.mpr ⟨decimal, rfl⟩]; rfl

theorem word?_eq_some_iff {text : List Char} {n : Int} :
    word? 10 text = some n ↔ Names text n ∧ fitsWord n := by
  rw [word?, Option.filter_eq_some_iff, signed?_eq_some_iff]

theorem not_fits_of_word? {text : List Char} (none : word? 10 text = .none) (n : Int)
    (named : Names text n) : ¬ fitsWord n := by
  intro fits
  rw [word?_eq_some_iff.mpr ⟨named, fits⟩] at none
  cases none

end LinkGuard.Numeral
