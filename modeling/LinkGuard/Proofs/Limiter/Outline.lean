import Mathlib.Logic.Function.Basic
import LinkGuard.Proofs.Limiter.Settled
import LinkGuard.Proofs.Limiter.Pair

/-! # Two plans side by side

What is said of the plans of both dimensions and of the state they share, and is kept by every
command of either, holds when both have come to their results, in whatever order they give their
commands.
-/

namespace LinkGuard

namespace Dimension

variable {σ α : Type}

/-- One of two results, by the dimension it is for. -/
def result (results : α × α) : Dimension → α
  | address => results.1
  | identity => results.2

/-- Whichever dimension gives its next command, this goes on to hold. -/
def Keeps (handlers : Dimension → Handler σ) (I : (Dimension → Plan α) → σ → Prop) : Prop :=
  ∀ d plans command next s, plans d = .ask command next → I plans s →
    I (Function.update plans d (next (handlers d command s).1)) (handlers d command s).2

variable {handlers : Dimension → Handler σ} {I : (Dimension → Plan α) → σ → Prop}
  {plans : Dimension → Plan α}

theorem Keeps.step (keeps : Keeps handlers I) (d : Dimension) {s : σ} (holds : I plans s) :
    I (Function.update plans d ((plans d).step (handlers d) s).1)
      ((plans d).step (handlers d) s).2 := by
  cases plan : plans d with
  | done result =>
      have same : Function.update plans d (.done result) = plans := by
        rw [← plan, Function.update_eq_self]
      simp only [Plan.step, same]
      exact holds
  | ask command next => exact keeps d plans command next s plan holds

theorem Keeps.run (keeps : Keeps handlers I) (d : Dimension) {plan : Plan α} {s : σ}
    (own : plans d = plan) (holds : I plans s) :
    I (Function.update plans d (.done (plan.run (handlers d) s).1))
      (plan.run (handlers d) s).2 := by
  induction plan generalizing plans s with
  | done result =>
      have same : Function.update plans d (.done result) = plans := by
        rw [← own, Function.update_eq_self]
      simp only [Plan.run, same]
      exact holds
  | ask command next ih =>
      have later := ih _ (Function.update_self d _ plans) (keeps d plans command next s own holds)
      rw [Function.update_idem] at later
      exact later

theorem Keeps.runBoth (keeps : Keeps handlers I) (turns : List Turn) {s : σ} (holds : I plans s) :
    let results :=
      Plan.runBoth (handlers address) (handlers identity) turns (plans address) (plans identity) s
    I (fun d => .done (result results.1 d)) results.2 := by
  have apart : identity ≠ address := by decide
  induction turns generalizing plans s with
  | nil =>
      have first := keeps.run address rfl holds
      have second := keeps.run identity (Function.update_of_ne apart _ plans) first
      have both : ∀ a b : α,
          Function.update (Function.update plans address (.done a)) identity (.done b) =
          fun d => .done (result (a, b) d) := by
        intro a b
        funext d
        cases d <;> rfl
      rw [both] at second
      exact second
  | cons turn turns ih =>
      cases turn with
      | first =>
          have later := ih (keeps.step address holds)
          rw [Function.update_self, Function.update_of_ne apart] at later
          exact later
      | second =>
          have later := ih (keeps.step identity holds)
          rw [Function.update_self, Function.update_of_ne apart.symm] at later
          exact later

end Dimension

namespace PairLimiter

variable {σ : Type} {handlers : Dimension → Handler σ}
  {I : (Dimension → Plan (Except StoreError Decision)) → σ → Prop}

/-- A call is decided by one answer for each dimension, and what its commands keep holds of these
    answers. -/
theorem allow_keeps (limiter : PairLimiter) (keeps : Dimension.Keeps handlers I) (turns : List Turn)
    (address identity : String) {s : σ}
    (holds : I (fun d => (limiter.policy d).allow (d.key (d.pick address identity))) s) :
    ∃ answers : Dimension → Except StoreError Decision,
      (limiter.allow (handlers .address) (handlers .identity) turns address identity s).1 =
        limiter.settle (answers .address) (answers .identity) ∧
      I (fun d => .done (answers d))
        (limiter.allow (handlers .address) (handlers .identity) turns address identity s).2 :=
  ⟨_, rfl, keeps.runBoth turns holds⟩

theorem ok_of_settle_allowed (limiter : PairLimiter)
    {answers : Dimension → Except StoreError Decision}
    (allowed : (limiter.settle (answers .address) (answers .identity)).allowed) (d : Dimension) :
    ∃ decision, answers d = .ok decision ∧ decision.allowed := by
  have answered : ∀ d, ∃ decision, answers d = .ok decision := by
    intro d
    cases answer : answers d with
    | ok decision => exact ⟨decision, rfl⟩
    | error e =>
        rw [limiter.settle_of_error answer] at allowed
        cases allowed
  choose decisions answer using answered
  rw [limiter.settle_of_ok answer] at allowed
  split at allowed
  case isTrue all => exact ⟨decisions d, answer d, all d⟩
  case isFalse => cases allowed

end PairLimiter

end LinkGuard
