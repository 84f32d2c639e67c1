import LinkGuard.Time.Step

/-! # Arithmetic of instants and spans

Comparisons and sums as statements about whole numbers of nanoseconds, so that linear arithmetic can
take over. A sum fails only past the last nanosecond of the calendar: spans are never negative. To
take a step is to add a span: whatever is too long to be a step leads out of the calendar from
anywhere in it.
-/

namespace LinkGuard

namespace Span

theorem le_iff {a b : Span} : a ≤ b ↔ a.nanos ≤ b.nanos := Iff.rfl

theorem lt_iff {a b : Span} : a < b ↔ a.nanos < b.nanos := Iff.rfl

@[ext] theorem ext {a b : Span} (h : a.nanos = b.nanos) : a = b := by
  cases a
  cases b
  exact congrArg Span.mk h

@[simp] theorem nanos_zero : Span.zero.nanos = 0 := rfl

theorem le_max_left (a b : Span) : a ≤ max a b := by
  show a.nanos ≤ (if a ≤ b then b else a).nanos
  split
  · assumption
  · exact Nat.le_refl _

theorem le_max_right (a b : Span) : b ≤ max a b := by
  show b.nanos ≤ (if a ≤ b then b else a).nanos
  split
  case isTrue => exact Nat.le_refl _
  case isFalse longer => exact Nat.le_of_lt (Nat.lt_of_not_le longer)

theorem max_eq_or (a b : Span) : max a b = a ∨ max a b = b := by
  show (if a ≤ b then b else a) = a ∨ (if a ≤ b then b else a) = b
  split
  · exact .inr rfl
  · exact .inl rfl

theorem max_le_max {a b c d : Span} (left : a ≤ c) (right : b ≤ d) : max a b ≤ max c d := by
  rcases max_eq_or a b with longest | longest
  · rw [longest]
    exact Nat.le_trans left (le_max_left c d)
  · rw [longest]
    exact Nat.le_trans right (le_max_right c d)

@[simp] theorem nanos_ofMillis (n : Nat) : (Span.ofMillis n).nanos = n * 1000000 := rfl

theorem ofMillis_le {m n : Nat} (h : m ≤ n) : Span.ofMillis m ≤ Span.ofMillis n :=
  Nat.mul_le_mul_right _ h

theorem millis_bounds (d : Span) :
    d.millis * 1000000 ≤ d.nanos ∧ d.nanos < (d.millis + 1) * 1000000 := by
  simp only [millis]
  omega

end Span

namespace Instant

theorem le_iff {a b : Instant} : a ≤ b ↔ a.nanos ≤ b.nanos := Iff.rfl

theorem lt_iff {a b : Instant} : a < b ↔ a.nanos < b.nanos := Iff.rfl

theorem not_lt {a b : Instant} : ¬ a < b ↔ b ≤ a := by
  simp only [lt_iff, le_iff]
  omega

theorem ofNanos?_eq_some_iff {n : Int} {t : Instant} : ofNanos? n = some t ↔ t.nanos = n := by
  have low := t.first_le
  have high := t.le_last
  constructor
  · intro h
    simp only [ofNanos?, Option.dite_none_right_eq_some] at h
    obtain ⟨_, same⟩ := h
    exact (congrArg nanos (Option.some.inj same)).symm
  · intro h
    subst h
    simp only [ofNanos?, low, high, and_self, dite_true]

theorem add?_eq_some_iff {t : Instant} {d : Span} {u : Instant} :
    t.add? d = some u ↔ u.nanos = t.nanos + d.nanos :=
  ofNanos?_eq_some_iff

theorem add?_eq_none_iff {t : Instant} {d : Span} :
    t.add? d = none ↔ last.nanos < t.nanos + d.nanos := by
  have low := t.first_le
  simp only [add?, ofNanos?, last]
  split
  case isTrue inside => simp only [reduceCtorEq, false_iff]; omega
  case isFalse outside => simp only [true_iff]; omega

theorem add?_isSome_iff {t : Instant} {d : Span} :
    (t.add? d).isSome ↔ t.nanos + d.nanos ≤ last.nanos := by
  rw [← Option.ne_none_iff_isSome, Ne, add?_eq_none_iff, Int.not_lt]

theorem add?_isSome_of_le {t : Instant} {d e : Span} (shorter : d ≤ e)
    (inside : (t.add? e).isSome) : (t.add? d).isSome := by
  rw [add?_isSome_iff] at inside ⊢
  rw [Span.le_iff] at shorter
  omega

theorem add?_ofMillis_isSome_iff {t u : Instant} {m n : Nat}
    (passed : t.add? (.ofMillis m) = some u) :
    (u.add? (.ofMillis n)).isSome ↔ (t.add? (.ofMillis (m + n))).isSome := by
  have sum := add?_eq_some_iff.mp passed
  simp only [add?_isSome_iff, sum, Span.nanos_ofMillis, Nat.add_mul, Int.natCast_add, Int.add_assoc]

theorem second_eq (t : Instant) : t.second = t.nanos / 1000000000 :=
  Int.fdiv_eq_ediv_of_nonneg _ (by decide)

theorem subsecond_eq (t : Instant) : (t.subsecond : Int) = t.nanos % 1000000000 := by
  simp only [subsecond, Int.fmod_eq_emod_of_nonneg _ (by decide : (0 : Int) ≤ 1000000000)]
  omega

/-- Seconds and nanoseconds are added apart, and full seconds of nanoseconds are carried over. -/
theorem parts_of_add? {t : Instant} {d : Span} {u : Instant} (h : t.add? d = some u) :
    u.second = t.second + d.seconds + ((t.subsecond + d.subsecond) / 1000000000 : Nat) ∧
      u.subsecond = (t.subsecond + d.subsecond) % 1000000000 := by
  have sum := add?_eq_some_iff.mp h
  have part := t.subsecond_eq
  have part' := u.subsecond_eq
  rw [sum] at part'
  simp only [second_eq, Span.seconds, Span.subsecond, sum]
  omega

theorem lt_of_add? {t : Instant} {d : Span} {u : Instant} (h : t.add? d = some u)
    (positive : .zero < d) : t < u := by
  have sum := add?_eq_some_iff.mp h
  simp only [Span.lt_iff, Span.nanos_zero] at positive
  simp only [lt_iff]
  omega

@[simp] theorem nanos_since (t now : Instant) :
    (t.since now).nanos = (t.nanos - now.nanos).toNat := rfl

theorem since_of_add? {t : Instant} {d : Span} {u : Instant} (h : t.add? d = some u) :
    u.since t = d := by
  have sum := add?_eq_some_iff.mp h
  ext
  rw [nanos_since]
  omega

/-- The instant so long after the start of 1970, or the last one. -/
def sinceEpoch (d : Span) : Instant := (epoch.add? d).getD last

theorem fits_second (t : Instant) : -8334601228800 ≤ t.second ∧ t.second ≤ 8210266876799 := by
  have low := t.first_le
  have high := t.le_last
  rw [second_eq]
  omega

/-- The instant at which the second of `t` begins. -/
def wholeSecond (t : Instant) : Instant :=
  ⟨t.second * 1000000000, by have := t.fits_second; omega, by have := t.fits_second; omega⟩

theorem ofSecond?_second (t : Instant) : ofSecond? t.second = some t.wholeSecond :=
  ofNanos?_eq_some_iff.mpr rfl

theorem wholeSecond_bounds (t : Instant) :
    t.wholeSecond ≤ t ∧ t.nanos < t.wholeSecond.nanos + 1000000000 := by
  simp only [le_iff, wholeSecond, second_eq]
  omega

theorem since_eq_zero_iff {t now : Instant} : t.since now = .zero ↔ t ≤ now := by
  simp only [Span.ext_iff, nanos_since, Span.nanos_zero, le_iff]
  omega

theorem bind_after? (t : Instant) (d : Span) : (Step.ofSpan? d).bind t.after? = t.add? d := by
  simp only [Step.ofSpan?]
  split
  case isTrue => rfl
  case isFalse long =>
    have low := t.first_le
    rw [Option.bind_none, eq_comm, add?_eq_none_iff]
    simp only [Span.le_iff, Span.longestStep, Span.nanos_ofMillis] at long
    simp only [last]
    omega

theorem span?_stepFrom (t now : Instant) :
    (t.stepFrom now).span? = if now ≤ t then some (t.since now) else none := by
  have ahead : 0 ≤ (t.stepFrom now).nanos ↔ now ≤ t := by
    simp only [stepFrom, le_iff]
    omega
  simp only [Step.span?, ahead]
  rfl

end Instant

end LinkGuard
