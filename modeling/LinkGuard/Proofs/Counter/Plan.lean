import LinkGuard.Counter.Plan

/-! # Plans and what they tell a store

The commands that a plan gives depend on the answers it gets. They are listed here beside the
result, and both are followed through a change of the result.
-/

namespace LinkGuard.Plan

variable {α β σ τ : Type}

/-- The plan with another result made of its result. -/
def map (f : α → β) : Plan α → Plan β
  | done result => done (f result)
  | ask command next => ask command fun answer => (next answer).map f

def commands (handler : Handler σ) : Plan α → σ → List Command
  | done _, _ => []
  | ask command next, s =>
    command :: (next (handler command s).1).commands handler (handler command s).2

@[simp] theorem run_map (f : α → β) (handler : Handler σ) (plan : Plan α) (s : σ) :
    (plan.map f).run handler s = (f (plan.run handler s).1, (plan.run handler s).2) := by
  induction plan generalizing s with
  | done => rfl
  | ask command next ih => exact ih _ _

theorem run_map_snd (f : α → β) (handler : Handler σ) (plan : Plan α) (s : σ) :
    ((plan.map f).run handler s).2 = (plan.run handler s).2 := by
  rw [run_map]

@[simp] theorem commands_map (f : α → β) (handler : Handler σ) (plan : Plan α) (s : σ) :
    (plan.map f).commands handler s = plan.commands handler s := by
  induction plan generalizing s with
  | done => rfl
  | ask command next ih => exact congrArg (List.cons command) (ih _ _)

/-- Stores that answer every command alike in related states, and stay related, give a plan the same
    result. -/
theorem run_related {left : Handler σ} {right : Handler τ} {R : σ → τ → Prop}
    (alike : ∀ command s t, R s t →
      (left command s).1 = (right command t).1 ∧ R (left command s).2 (right command t).2)
    (plan : Plan α) {s : σ} {t : τ} (start : R s t) :
    (plan.run left s).1 = (plan.run right t).1 ∧ R (plan.run left s).2 (plan.run right t).2 := by
  induction plan generalizing s t with
  | done => exact ⟨rfl, start⟩
  | ask command next ih =>
      obtain ⟨same, related⟩ := alike command s t start
      simp only [run, same]
      exact ih _ related

end LinkGuard.Plan
