import Mathlib.Tactic.Choose
import LinkGuard.Limiter.Pair
import LinkGuard.Proofs.Time

/-! # One decision out of two

The two dimensions are told apart by name only, so what they come to is one answer for each
dimension. A store without an answer decides alone; otherwise one dimension that denies is enough,
and the longest wait of those that deny is the wait of both.
-/

namespace LinkGuard

theorem Dimension.forall_iff {P : Dimension → Prop} : (∀ d, P d) ↔ P .address ∧ P .identity :=
  ⟨fun all => ⟨all _, all _⟩, fun both d => by
    cases d with
    | address => exact both.1
    | identity => exact both.2⟩

instance {P : Dimension → Prop} [DecidablePred P] : Decidable (∀ d, P d) :=
  decidable_of_iff (P .address ∧ P .identity) Dimension.forall_iff.symm

namespace PairLimiter

def policy (limiter : PairLimiter) : Dimension → Policy
  | .address => limiter.address
  | .identity => limiter.identity

variable {answers : Dimension → Except StoreError Decision}
  {decisions : Dimension → Decision}

theorem settle_of_error (limiter : PairLimiter) {d : Dimension} {e : StoreError}
    (failed : answers d = .error e) :
    limiter.settle (answers .address) (answers .identity) = .deny limiter.storeErrorCooldown := by
  cases d with
  | address =>
      rw [failed]
      rfl
  | identity =>
      rw [failed]
      cases answers .address <;> rfl

theorem settle_of_ok (limiter : PairLimiter) (answered : ∀ d, answers d = .ok (decisions d)) :
    limiter.settle (answers .address) (answers .identity) =
      if ∀ d, (decisions d).allowed then .allow
      else .deny (max (decisions .address).retryAfter (decisions .identity).retryAfter) := by
  simp only [answered .address, answered .identity, settle, Dimension.forall_iff, Bool.and_eq_true]

/-- Where no dimension that allows makes the caller wait, the wait of both is that of one that
    denies, and no dimension's wait is longer. -/
theorem settle_cases (limiter : PairLimiter) (answered : ∀ d, answers d = .ok (decisions d))
    (plain : ∀ d, (decisions d).allowed → decisions d = .allow) :
    (∀ d, (decisions d).allowed) ∧ limiter.settle (answers .address) (answers .identity) = .allow ∨
    ∃ e, (decisions e).allowed = false ∧
      limiter.settle (answers .address) (answers .identity) = .deny (decisions e).retryAfter ∧
      ∀ d, (decisions d).retryAfter ≤ (decisions e).retryAfter := by
  have settled := limiter.settle_of_ok answered
  by_cases all : ∀ d, (decisions d).allowed
  · rw [if_pos all] at settled
    exact .inl ⟨all, settled⟩
  · rw [if_neg all] at settled
    obtain ⟨d, denies⟩ := Classical.not_forall.mp all
    obtain ⟨e, longest⟩ : ∃ e,
        max (decisions .address).retryAfter (decisions .identity).retryAfter =
          (decisions e).retryAfter := by
      rcases Span.max_eq_or (decisions .address).retryAfter (decisions .identity).retryAfter
        with left | right
      · exact ⟨.address, left⟩
      · exact ⟨.identity, right⟩
    have most : ∀ d, (decisions d).retryAfter ≤ (decisions e).retryAfter := by
      rw [Dimension.forall_iff, ← longest]
      exact ⟨Span.le_max_left _ _, Span.le_max_right _ _⟩
    rw [longest] at settled
    by_cases allowed : (decisions e).allowed
    · -- Then nobody waits at all, and the dimension that denies waits no longer than that.
      have none : (decisions e).retryAfter = (decisions d).retryAfter := by
        have short := most d
        rw [plain e allowed, Span.le_iff] at short
        rw [plain e allowed]
        exact Span.ext (Nat.eq_zero_of_le_zero short).symm
      rw [none] at settled most
      exact .inr ⟨d, (Bool.not_eq_true _).mp denies, settled, most⟩
    · exact .inr ⟨e, (Bool.not_eq_true _).mp allowed, settled, most⟩

theorem settle_eq_allow_iff (limiter : PairLimiter)
    (answers : Dimension → Except StoreError Decision)
    (plain : ∀ d decision, answers d = .ok decision → decision.allowed → decision = .allow) :
    limiter.settle (answers .address) (answers .identity) = .allow ↔
    ∀ d, answers d = .ok .allow := by
  constructor
  · intro settled
    have answered : ∀ d, ∃ decision, answers d = .ok decision := by
      intro d
      cases answer : answers d with
      | ok decision => exact ⟨decision, rfl⟩
      | error e =>
          rw [limiter.settle_of_error answer] at settled
          cases settled
    choose decisions answer using answered
    rw [limiter.settle_of_ok answer] at settled
    split at settled
    case isTrue all =>
      intro d
      rw [answer d, plain d _ (answer d) (all d)]
    case isFalse => cases settled
  · intro both
    rw [limiter.settle_of_ok both]
    exact if_pos fun _ => rfl

end PairLimiter

end LinkGuard
