import LinkGuard.Decimal.Binary64
import LinkGuard.Proofs.Text.Written

/-! # What reads as a double

The texts that the reader of doubles takes, said without the reader: a number in digits, with a
point and an exponent where there is one, or one of the words for infinity and for no number, in
letters of any case. A sign may come first.
-/

namespace LinkGuard.Binary64

open Numeral

/-- A point with digits behind it, or nothing. -/
def Point (text : List Char) : Prop :=
  text = [] ∨ ∃ digits, text = '.' :: digits ∧ ∀ c ∈ digits, c.isDigit

/-- The letter `e` with a whole number behind it, or nothing. -/
def Exponent (text : List Char) : Prop :=
  text = [] ∨ ∃ e rest n, text = e :: rest ∧ (e = 'e' ∨ e = 'E') ∧ Names rest n

/-- Digits, a point and an exponent, of which all may be missing that is not the only digit. -/
def Scientific (text : List Char) : Prop :=
  ∃ whole point exponent, text = whole ++ (point ++ exponent) ∧
    (∀ c ∈ whole, c.isDigit) ∧ Point point ∧
    Exponent exponent ∧ ∃ c ∈ whole ++ point, c.isDigit

def IsWord (text : List Char) : Prop :=
  String.ofList (text.map Char.toLower) ∈ ["inf", "infinity", "nan"]

/-- The text of a double without a sign. -/
def Unsigned (text : List Char) : Prop := IsWord text ∨ Scientific text

inductive Real : List Char → Prop where
  | bare {text : List Char} (unsigned : Unsigned text) : Real text
  | plus {text : List Char} (unsigned : Unsigned text) : Real ('+' :: text)
  | minus {text : List Char} (unsigned : Unsigned text) : Real ('-' :: text)

theorem span_append {p : Char → Bool} {run rest : List Char} (inside : ∀ c ∈ run, p c)
    (stops : ∀ c ∈ rest.head?, ¬ p c) :
    (run ++ rest).takeWhile p = run ∧ (run ++ rest).dropWhile p = rest := by
  rw [List.takeWhile_append_of_pos inside, List.dropWhile_append_of_pos inside]
  cases rest with
  | nil => exact ⟨List.append_nil run, rfl⟩
  | cons c rest =>
      have stop := stops c rfl
      rw [List.takeWhile_cons_of_neg stop, List.dropWhile_cons_of_neg stop]
      exact ⟨List.append_nil run, rfl⟩

theorem exists_span (p : Char → Bool) (text : List Char) :
    ∃ run rest, text = run ++ rest ∧ (∀ c ∈ run, p c) ∧ ∀ c ∈ rest.head?, ¬ p c := by
  induction text with
  | nil => exact ⟨[], [], rfl, List.forall_mem_nil _, fun c none => by cases none⟩
  | cons c text ih =>
      by_cases inside : p c
      · obtain ⟨run, rest, rfl, within, stops⟩ := ih
        exact ⟨c :: run, rest, rfl, List.forall_mem_cons.mpr ⟨inside, within⟩, stops⟩
      · refine ⟨[], c :: text, rfl, List.forall_mem_nil _, fun d first => ?_⟩
        obtain rfl := Option.some.inj first
        exact inside

theorem isDigit_eq : (fun c : Char => decide ('0' ≤ c) && decide (c ≤ '9')) = Char.isDigit := by
  funext c
  rw [Bool.eq_iff_iff, isDigit_iff, Bool.and_eq_true, decide_eq_true_eq, decide_eq_true_eq]

variable {negative : Bool} {text whole digits exponent : List Char}

theorem exponent?_isSome_iff : (exponent? text).isSome ↔ Exponent text := by
  cases text with
  | nil => exact iff_of_true rfl (.inl rfl)
  | cons e rest =>
      simp only [exponent?, Exponent, reduceCtorEq, false_or, List.cons.injEq, Bool.or_eq_true,
        decide_eq_true_eq]
      constructor
      · intro some
        split at some
        case isTrue letter =>
          obtain ⟨n, read⟩ := Option.isSome_iff_exists.mp some
          exact ⟨e, rest, n, ⟨rfl, rfl⟩, letter, signed?_eq_some_iff.mp read⟩
        case isFalse => cases some
      · rintro ⟨_, _, n, ⟨rfl, rfl⟩, letter, named⟩
        rw [if_pos letter, signed?_eq_some_iff.mpr named, Option.isSome_some]

theorem Exponent.stops (exponent' : Exponent exponent) :
    ∀ c ∈ exponent.head?, ¬ c.isDigit ∧ c ≠ '.' := by
  rcases exponent' with rfl | ⟨e, rest, n, rfl, letter, _⟩
  · exact fun c none => by cases none
  · rintro c first
    obtain rfl := Option.some.inj first
    rcases letter with rfl | rfl <;> decide

theorem unsigned?_of_point (inside : ∀ c ∈ whole, c.isDigit) (inside' : ∀ c ∈ digits, c.isDigit)
    (stops : ∀ c ∈ exponent.head?, ¬ c.isDigit) :
    (unsigned? negative (whole ++ '.' :: (digits ++ exponent))).isSome ↔
      (whole ≠ [] ∨ digits ≠ []) ∧ (exponent? exponent).isSome := by
  have point : ∀ c ∈ ('.' :: (digits ++ exponent)).head?, ¬ c.isDigit := by simp
  obtain ⟨taken, dropped⟩ := span_append inside point
  obtain ⟨taken', dropped'⟩ := span_append inside' stops
  simp only [unsigned?, isDigit_eq, taken, dropped, taken', dropped']
  split
  case isTrue none => simp_all
  case isFalse some => simp_all [imp_iff_not_or]

theorem unsigned?_of_no_point (inside : ∀ c ∈ whole, c.isDigit)
    (stops : ∀ c ∈ exponent.head?, ¬ c.isDigit ∧ c ≠ '.') :
    (unsigned? negative (whole ++ exponent)).isSome ↔ whole ≠ [] ∧ (exponent? exponent).isSome := by
  obtain ⟨taken, dropped⟩ := span_append inside fun c first => (stops c first).1
  simp only [unsigned?, isDigit_eq, taken, dropped]
  split
  case h_1 rest => exact absurd rfl (stops '.' rfl).2
  case h_2 =>
    split
    case isTrue none => simp_all
    case isFalse some => simp_all

theorem exists_isDigit_iff (inside : ∀ c ∈ digits, c.isDigit) :
    (∃ c ∈ digits, c.isDigit) ↔ digits ≠ [] := by
  constructor
  · rintro ⟨c, member, _⟩ rfl
    cases member
  · intro some
    obtain ⟨c, rest, rfl⟩ := List.exists_cons_of_ne_nil some
    exact ⟨c, List.mem_cons_self, inside c List.mem_cons_self⟩

theorem unsigned?_isSome_iff : (unsigned? negative text).isSome ↔ Scientific text := by
  constructor
  · intro taken
    obtain ⟨whole, rest, rfl, inside, stops⟩ := exists_span Char.isDigit text
    by_cases pointed : rest.head? = some '.'
    · obtain ⟨behind, rfl⟩ := List.head?_eq_some_iff.mp pointed
      obtain ⟨digits, exponent, rfl, inside', stops'⟩ := exists_span Char.isDigit behind
      rw [unsigned?_of_point inside inside' stops', exponent?_isSome_iff] at taken
      refine ⟨whole, '.' :: digits, exponent, rfl, inside, .inr ⟨digits, rfl, inside'⟩, taken.2, ?_⟩
      rcases taken.1 with before | behind
      · obtain ⟨c, member, digit⟩ := (exists_isDigit_iff inside).mpr before
        exact ⟨c, List.mem_append_left _ member, digit⟩
      · obtain ⟨c, member, digit⟩ := (exists_isDigit_iff inside').mpr behind
        exact ⟨c, List.mem_append_right _ (List.mem_cons_of_mem _ member), digit⟩
    · have stops' : ∀ c ∈ rest.head?, ¬ c.isDigit ∧ c ≠ '.' := fun c first =>
        ⟨stops c first, fun point => pointed (point ▸ first)⟩
      rw [unsigned?_of_no_point inside stops', exponent?_isSome_iff] at taken
      refine ⟨whole, [], rest, rfl, inside, .inl rfl, taken.2, ?_⟩
      rw [List.append_nil]
      exact (exists_isDigit_iff inside).mpr taken.1
  · rintro ⟨whole, point, exponent, rfl, inside, point', exponent', c, member, digit⟩
    rcases point' with rfl | ⟨digits, rfl, inside'⟩
    · rw [List.nil_append, unsigned?_of_no_point inside exponent'.stops, exponent?_isSome_iff]
      rw [List.append_nil] at member
      exact ⟨List.ne_nil_of_mem member, exponent'⟩
    · rw [List.cons_append,
        unsigned?_of_point inside inside' fun c first => (exponent'.stops c first).1,
        exponent?_isSome_iff]
      refine ⟨?_, exponent'⟩
      rcases List.mem_append.mp member with before | behind
      · exact .inl (List.ne_nil_of_mem before)
      · rcases List.mem_cons.mp behind with rfl | behind
        · cases digit
        · exact .inr (List.ne_nil_of_mem behind)

theorem body?_isSome_iff : (body? negative text).isSome ↔ Unsigned text := by
  simp only [body?, Unsigned, IsWord, List.mem_cons, List.not_mem_nil, or_false]
  split
  case h_1 word => exact iff_of_true rfl (.inl (.inl word))
  case h_2 word => exact iff_of_true rfl (.inl (.inr (.inl word)))
  case h_3 word => exact iff_of_true rfl (.inl (.inr (.inr word)))
  case h_4 inf infinity nan =>
    have none : ¬ (String.ofList (text.map Char.toLower) = "inf" ∨
        String.ofList (text.map Char.toLower) = "infinity" ∨
        String.ofList (text.map Char.toLower) = "nan") := by
      rintro (word | word | word)
      · exact inf word
      · exact infinity word
      · exact nan word
    rw [unsigned?_isSome_iff, or_iff_right none]

theorem Scientific.head {c : Char} {rest : List Char} (scientific : Scientific (c :: rest)) :
    c.isDigit ∨ c = '.' := by
  obtain ⟨whole, point, exponent, split, inside, point', _, d, member, digit⟩ := scientific
  cases whole with
  | cons first more =>
      obtain ⟨rfl, _⟩ := List.cons.inj split
      exact .inl (inside c List.mem_cons_self)
  | nil =>
      rcases point' with rfl | ⟨digits, rfl, _⟩
      · cases member
      · exact .inr (List.cons.inj split).1

theorem IsWord.head {c : Char} {rest : List Char} (word : IsWord (c :: rest)) :
    c.toLower = 'i' ∨ c.toLower = 'n' := by
  simp only [IsWord, List.mem_cons, List.not_mem_nil, or_false, List.map_cons, ← String.toList_inj,
    String.toList_ofList] at word
  rcases word with word | word | word
  · exact .inl (List.cons.inj word).1
  · exact .inl (List.cons.inj word).1
  · exact .inr (List.cons.inj word).1

theorem not_unsigned_of_sign {sign : Char} (signed : sign = '+' ∨ sign = '-') (text : List Char) :
    ¬ Unsigned (sign :: text) := by
  rintro (word | scientific)
  · rcases signed with rfl | rfl <;>
      simp [IsWord, ← String.toList_inj, String.toList_ofList] at word
  · have first := scientific.head
    rcases signed with rfl | rfl <;> revert first <;> decide

/-- The reader takes a text if and only if it has the form of a number or is a word for one. -/
theorem parse?_isSome_iff : (parse? text).isSome ↔ Real text := by
  constructor
  · intro some
    unfold parse? at some
    split at some
    case h_1 => exact .minus (body?_isSome_iff.mp some)
    case h_2 => exact .plus (body?_isSome_iff.mp some)
    case h_3 => exact .bare (body?_isSome_iff.mp some)
  · intro real
    cases real with
    | plus unsigned => exact body?_isSome_iff.mpr unsigned
    | minus unsigned => exact body?_isSome_iff.mpr unsigned
    | bare unsigned =>
        unfold parse?
        split
        case h_1 => exact absurd unsigned (not_unsigned_of_sign (.inr rfl) _)
        case h_2 => exact absurd unsigned (not_unsigned_of_sign (.inl rfl) _)
        case h_3 => exact body?_isSome_iff.mpr unsigned

theorem Real.head {c : Char} {rest : List Char} (real : Real (c :: rest)) :
    c = '+' ∨ c = '-' ∨ c = '.' ∨ c.isDigit ∨ c.toLower = 'i' ∨ c.toLower = 'n' := by
  cases real with
  | plus => exact .inl rfl
  | minus => exact .inr (.inl rfl)
  | bare unsigned =>
      rcases unsigned with word | scientific
      · exact .inr (.inr (.inr (.inr word.head)))
      · rcases scientific.head with digit | point
        · exact .inr (.inr (.inr (.inl digit)))
        · exact .inr (.inr (.inl point))

theorem real_of_names {n : Int} (named : Names text n) : Real text := by
  have whole {digits : List Char} (decimal : Decimal digits) : Unsigned digits := by
    obtain ⟨c, rest, rfl⟩ := List.exists_cons_of_ne_nil decimal.1
    refine .inr ⟨c :: rest, [], [], ?_, decimal.2, .inl rfl, .inl rfl, c, ?_,
      decimal.2 c List.mem_cons_self⟩
    · rw [List.append_nil, List.append_nil]
    · exact List.mem_append_left _ List.mem_cons_self
  cases named with
  | bare decimal => exact .bare (whole decimal)
  | plus decimal => exact .plus (whole decimal)
  | minus decimal => exact .minus (whole decimal)

end LinkGuard.Binary64
