import LinkGuard.Proofs.Layer.Meaning
import LinkGuard.Proofs.Text.Canonical

/-! # Scalars as texts and numbers

Where a text is asked for, what a scalar was taken for is written down, and where a number is asked
for, it is counted. A quoted scalar is a text and stays as it is. One without quotes and tags may
have been taken for a number or for nothing, and stays as it is only if the number is written in the
same way.
-/

namespace LinkGuard

namespace Layer.Datum

variable {d : Datum} {v : Value} {s t : String} {n : Nat}

theorem optionalText?_eq_some_iff : v.optionalText? = some (some s) ↔ v.text? = some s := by
  cases v <;> simp [Value.optionalText?, Value.text?]

/-- What is written where a text is asked for. -/
inductive Written : Datum → String → Prop where
  | text (s : String) : Written (text s) s
  | bool (b : Bool) : Written (bool b) (if b then "true" else "false")
  | integer (n : Int) : Written (integer n) (Numeral.ofInt n)
  | real {s : String} {x : Binary64} (read : Binary64.parse? s.toList = some x) :
    Written (real s) x.text

/-- What is counted where a number is asked for. -/
inductive Counted : Datum → Nat → Prop where
  | text {s : String} {n : Nat} (read : Value.textNumber? s = some n) : Counted (text s) n
  | bool (b : Bool) : Counted (bool b) b.toNat
  | integer (n : Nat) : Counted (integer n) n
  | real {s : String} {x : Binary64} (read : Binary64.parse? s.toList = some x) :
    Counted (real s) x.toWord

theorem text?_eq_some_iff (single : Single s d) (value : d.value = .ok v) :
    v.text? = some t ↔ Written d t := by
  cases single with
  | real =>
      obtain ⟨x, read, rfl⟩ := value_real value
      constructor
      · intro said
        obtain rfl := Option.some.inj said
        exact .real read
      · intro written
        cases written with
        | real again =>
            rw [read, Option.some.injEq] at again
            exact congrArg (some ∘ Binary64.text) again
  | nil | broken =>
      obtain rfl := Except.ok.inj value
      exact iff_of_false nofun nofun
  | _ =>
      obtain rfl := Except.ok.inj value
      constructor
      · rintro ⟨⟩
        constructor
      · rintro ⟨⟩
        rfl

theorem number?_eq_some_iff (single : Single s d) (value : d.value = .ok v) :
    v.number? = some n ↔ Counted d n := by
  cases single with
  | real =>
      obtain ⟨x, read, rfl⟩ := value_real value
      constructor
      · intro said
        obtain rfl := Option.some.inj said
        exact .real read
      · intro counted
        cases counted with
        | real again =>
            rw [read, Option.some.injEq] at again
            exact congrArg (some ∘ Binary64.toWord) again
  | text =>
      obtain rfl := Except.ok.inj value
      constructor
      · exact .text
      · rintro ⟨read⟩
        exact read
  | integer i =>
      obtain rfl := Except.ok.inj value
      constructor
      · intro said
        cases i with
        | ofNat m =>
            obtain rfl := Option.some.inj said
            exact .integer m
        | negSucc => cases said
      · rintro ⟨⟩
        rfl
  | bool b =>
      obtain rfl := Except.ok.inj value
      constructor
      · rintro ⟨⟩
        constructor
      · rintro ⟨⟩
        rfl
  | nil | broken =>
      obtain rfl := Except.ok.inj value
      exact iff_of_false nofun nofun

/-! ## Which scalars stay as they are -/

variable {style : Yaml.Style} {tag : Option Yaml.Tag}

theorem written_of_quoted (quoted : style ≠ .plain) : Written (ofScalar style tag s) s := by
  have text : ofScalar style tag s = .text s := by
    unfold ofScalar
    split
    · exact absurd rfl quoted
    · exact absurd rfl quoted
    · rfl
  rw [text]
  exact .text s

theorem written_integer_iff {i : Int} : Written (integer i) s ↔ Numeral.ofInt i = s := by
  constructor
  · rintro ⟨⟩
    rfl
  · rintro rfl
    exact .integer i

theorem written_real_iff :
    Written (real t) s ↔ ∃ x, Binary64.parse? t.toList = some x ∧ x.text = s := by
  constructor
  · intro written
    cases written with
    | real read => exact ⟨_, read, rfl⟩
  · rintro ⟨x, read, rfl⟩
    exact .real read

theorem not_canonical_of_marked {text : List Char} {i : Int} (marked : marked? text = some i) :
    ¬ Numeral.Canonical text := by
  intro canonical
  unfold marked? at marked
  split at marked
  case h_1 => exact absurd (canonical.sign_or_digit (c := 'x') (by simp)) (by decide)
  case h_2 => exact absurd (canonical.sign_or_digit (c := 'o') (by simp)) (by decide)
  case h_3 => exact absurd (canonical.sign_or_digit (c := '+') (by simp)) (by decide)
  case h_4 => cases marked

theorem eq_of_bool? {b : Bool} (truth : bool? s = some b) : s = if b then "true" else "false" := by
  unfold bool? at truth
  cases b <;> grind

theorem no_number_of_bool? {b : Bool} (truth : bool? s = some b) :
    Numeral.word? 10 s.toList = none ∧ isReal s = false := by
  obtain rfl := eq_of_bool? truth
  cases b <;> decide

/-- For what is no whole number of a word only the way a real one is written counts. -/
theorem canonical_and_iff {text : List Char} {real : Prop} (whole : Numeral.word? 10 text = none) :
    ((∀ i, Numeral.Names text i → Numeral.fitsWord i → Numeral.Canonical text) ∧
      ((∀ i, Numeral.Names text i → ¬ Numeral.fitsWord i) → real)) ↔ real := by
  have large := Numeral.not_fits_of_word? whole
  constructor
  · exact fun stays => stays.2 large
  · exact fun kept => ⟨fun i named fits => absurd fits (large i named), fun _ => kept⟩

/-- A scalar without quotes and tags stays as it is unless it means nothing, has a mark in front, or
    is a number that is written in another way. -/
theorem written_guess_iff : Written (guess s) s ↔
    isNil s = false ∧ marked? s.toList = none ∧
    (∀ i, Numeral.Names s.toList i → Numeral.fitsWord i → Numeral.Canonical s.toList) ∧
    ((∀ i, Numeral.Names s.toList i → ¬ Numeral.fitsWord i) → isReal s →
      ∃ x, Binary64.parse? s.toList = some x ∧ x.text = s) := by
  cases marked : marked? s.toList with
  | some i =>
      rw [guess, marked, written_integer_iff]
      refine iff_of_false (fun same => not_canonical_of_marked marked ?_) nofun
      exact same ▸ Numeral.canonical_ofInt i
  | none =>
      -- From here on the cases follow the order in which a scalar is tried.
      rw [guess, marked]
      dsimp only
      split
      case isTrue nothing => exact iff_of_false nofun fun stays => by simp [nothing] at stays
      case isFalse some =>
        rw [Bool.not_eq_true] at some
        simp only [some, true_and]
        cases truth : bool? s with
        | some b =>
            obtain ⟨whole, real⟩ := no_number_of_bool? truth
            rw [canonical_and_iff whole, real]
            refine iff_of_true ?_ nofun
            rw [eq_of_bool? truth]
            exact .bool b
        | none =>
            cases whole : Numeral.word? 10 s.toList with
            | some i =>
                obtain ⟨named, fits⟩ := Numeral.word?_eq_some_iff.mp whole
                rw [written_integer_iff, ← String.toList_inj, Numeral.toList_ofInt_eq_iff named]
                constructor
                · exact fun canonical =>
                    ⟨fun _ _ _ => canonical, fun large => absurd fits (large i named)⟩
                · exact fun stays => stays.1 i named fits
            | none =>
                rw [canonical_and_iff whole]
                dsimp only
                split
                case isTrue real =>
                  rw [written_real_iff]
                  exact (imp_iff_right real).symm
                case isFalse plain => exact iff_of_true (.text s) fun real => absurd real plain

theorem guess_of_word? {i : Int} (bare : marked? s.toList = none)
    (whole : Numeral.word? 10 s.toList = some i) :
    guess s = .integer i := by
  have some : isNil s = false := by
    by_contra nothing
    rw [Bool.not_eq_false, isNil, Bool.or_eq_true, decide_eq_true_eq, decide_eq_true_eq] at nothing
    rcases nothing with rfl | rfl <;> exact absurd whole nofun
  have other : bool? s = none := by
    cases truth : bool? s with
    | none => rfl
    | some b =>
        rw [(no_number_of_bool? truth).1] at whole
        cases whole
  simp only [guess, bare, some, other, whole, Bool.false_eq_true, if_false]

theorem marked?_of_decimal {text : List Char} (decimal : Numeral.Decimal text) :
    marked? text = none := by
  unfold marked?
  split
  case h_1 => exact absurd (decimal.2 'x' (by simp)) (by decide)
  case h_2 => exact absurd (decimal.2 'o' (by simp)) (by decide)
  case h_3 => exact absurd (decimal.2 '+' (by simp)) (by decide)
  case h_4 => rfl

theorem counted_guess {n : Nat} (counts : Numeral.Counts s.toList n) (fits : Numeral.fitsWord n) :
    Counted (guess s) n := by
  have guessed : guess s = .integer n := by
    generalize text : s.toList = digits at counts
    cases counts with
    | bare decimal =>
        rw [← text] at decimal
        exact guess_of_word? (marked?_of_decimal decimal)
          (Numeral.word?_eq_some_iff.mpr ⟨text ▸ .bare decimal, fits⟩)
    | plus decimal =>
        have whole := Numeral.word?_eq_some_iff.mpr ⟨.bare decimal, fits⟩
        simp only [guess, text, marked?, whole]
  rw [guessed]
  exact .integer n

end Layer.Datum

end LinkGuard
