import Mathlib.Logic.Function.Basic
import LinkGuard.Proofs.Counter.Plan

/-! # Plans on stores that answer alike

A plan that names one key sees no more of a store than what the store does under that key. Two
stores that do the same there lead it to the same result, alone and beside another plan, turn by
turn. If each of two plans has a store of its own, their turns make no difference.
-/

namespace LinkGuard

variable {α β σ τ ι : Type}

namespace Handler

/-- Related states stay related under the commands that name a key, and these are answered alike in
    both. -/
def Alike (key : String) (R : σ → τ → Prop) (left : Handler σ) (right : Handler τ) : Prop :=
  ∀ command s t, command.key = key → R s t →
    (left command s).1 = (right command t).1 ∧ R (left command s).2 (right command t).2

/-- A store that is one of several. -/
def part [DecidableEq ι] (i : ι) (handler : Handler σ) : Handler (ι → σ) := fun command stores =>
  let (answer, s) := handler command (stores i)
  (answer, Function.update stores i s)

theorem part_apply [DecidableEq ι] (i : ι) (handler : Handler σ) (command : Command)
    (stores : ι → σ) :
    handler.part i command stores =
      ((handler command (stores i)).1, Function.update stores i (handler command (stores i)).2) :=
  rfl

end Handler

namespace Plan

/-- Every command that the plan can give names this key. -/
def About (key : String) : Plan α → Prop
  | done _ => True
  | ask command next => command.key = key ∧ ∀ answer, (next answer).About key

/-- What is left of two plans side by side, and what they have made of the store, after some
    turns. -/
def stepBoth (left right : Handler σ) : List Turn → Plan α → Plan β → σ → (Plan α × Plan β) × σ
  | [], p, q, s => ((p, q), s)
  | .first :: turns, p, q, s =>
    let (p, s) := p.step left s
    stepBoth left right turns p q s
  | .second :: turns, p, q, s =>
    let (q, s) := q.step right s
    stepBoth left right turns p q s

theorem runBoth_append (left right : Handler σ) (before after : List Turn) (p : Plan α)
    (q : Plan β) (s : σ) :
    runBoth left right (before ++ after) p q s =
      runBoth left right after (stepBoth left right before p q s).1.1
        (stepBoth left right before p q s).1.2 (stepBoth left right before p q s).2 := by
  induction before generalizing p q s with
  | nil => rfl
  | cons turn turns ih =>
      cases turn with
      | first => exact ih _ _ _
      | second => exact ih _ _ _

section

variable {key : String} {plan : Plan α}

theorem About.step (about : plan.About key) (handler : Handler σ) (s : σ) :
    (plan.step handler s).1.About key := by
  cases plan with
  | done result => exact about
  | ask command next => exact about.2 _

theorem About.map {β : Type} (about : plan.About key) (f : α → β) : (plan.map f).About key := by
  induction plan with
  | done result => exact about
  | ask command next ih => exact ⟨about.1, fun answer => ih answer (about.2 answer)⟩

theorem About.run_keeps (about : plan.About key) {handler : Handler σ} {P : σ → Prop}
    (keeps : ∀ command s, command.key = key → P s → P (handler command s).2) {s : σ} (start : P s) :
    P (plan.run handler s).2 := by
  induction plan generalizing s with
  | done result => exact start
  | ask command next ih => exact ih _ (about.2 _) (keeps command s about.1 start)

variable {left : Handler σ} {right : Handler τ} {R : σ → τ → Prop} {s : σ} {t : τ}

theorem About.step_alike (about : plan.About key) (alike : Handler.Alike key R left right)
    (start : R s t) :
    (plan.step left s).1 = (plan.step right t).1 ∧
    R (plan.step left s).2 (plan.step right t).2 := by
  cases plan with
  | done result => exact ⟨rfl, start⟩
  | ask command next =>
      obtain ⟨same, related⟩ := alike command s t about.1 start
      exact ⟨congrArg next same, related⟩

theorem About.run_alike (about : plan.About key) (alike : Handler.Alike key R left right)
    (start : R s t) :
    (plan.run left s).1 = (plan.run right t).1 ∧ R (plan.run left s).2 (plan.run right t).2 := by
  induction plan generalizing s t with
  | done result => exact ⟨rfl, start⟩
  | ask command next ih =>
      obtain ⟨same, related⟩ := alike command s t about.1 start
      simp only [run, same]
      exact ih _ (about.2 _) related

end

section

variable {first second : String} {p : Plan α} {q : Plan β} {left right : Handler σ}
  {left' right' : Handler τ} {R : σ → τ → Prop} {s : σ} {t : τ}

theorem stepBoth_alike (about : p.About first) (about' : q.About second)
    (alike : Handler.Alike first R left left') (alike' : Handler.Alike second R right right')
    (turns : List Turn) (start : R s t) :
    (stepBoth left right turns p q s).1 = (stepBoth left' right' turns p q t).1 ∧
      R (stepBoth left right turns p q s).2 (stepBoth left' right' turns p q t).2 := by
  induction turns generalizing p q s t with
  | nil => exact ⟨rfl, start⟩
  | cons turn turns ih =>
      cases turn with
      | first =>
          obtain ⟨same, related⟩ := about.step_alike alike start
          simp only [stepBoth, ← same]
          exact ih (about.step left s) about' related
      | second =>
          obtain ⟨same, related⟩ := about'.step_alike alike' start
          simp only [stepBoth, ← same]
          exact ih about (about'.step right s) related

theorem About.stepBoth (about : p.About first) (about' : q.About second) (left right : Handler σ)
    (turns : List Turn) (s : σ) :
    (stepBoth left right turns p q s).1.1.About first ∧
    (stepBoth left right turns p q s).1.2.About second := by
  induction turns generalizing p q s with
  | nil => exact ⟨about, about'⟩
  | cons turn turns ih =>
      cases turn with
      | first => exact ih (about.step left s) about' _
      | second => exact ih about (about'.step right s) _

theorem runBoth_alike (about : p.About first) (about' : q.About second)
    (alike : Handler.Alike first R left left') (alike' : Handler.Alike second R right right')
    (turns : List Turn) (start : R s t) :
    (runBoth left right turns p q s).1 = (runBoth left' right' turns p q t).1 ∧
      R (runBoth left right turns p q s).2 (runBoth left' right' turns p q t).2 := by
  -- When the turns are over, the first plan runs to its end and then the second.
  obtain ⟨leftover, related⟩ := stepBoth_alike about about' alike alike' turns start
  obtain ⟨rest, rest'⟩ := about.stepBoth about' left right turns s
  obtain ⟨same, between⟩ := rest.run_alike alike related
  obtain ⟨same', after⟩ := rest'.run_alike alike' between
  rw [← List.append_nil turns, runBoth_append, runBoth_append, ← leftover]
  simp only [runBoth, same, same']
  exact ⟨trivial, after⟩

end

section

variable [DecidableEq ι] {i j : ι}

theorem step_part (handler : Handler σ) (plan : Plan α) (stores : ι → σ) :
    plan.step (handler.part i) stores =
      ((plan.step handler (stores i)).1,
        Function.update stores i (plan.step handler (stores i)).2) := by
  cases plan with
  | done result => simp only [step, Function.update_eq_self]
  | ask command next => rfl

theorem run_part (handler : Handler σ) (plan : Plan α) (stores : ι → σ) :
    plan.run (handler.part i) stores =
      ((plan.run handler (stores i)).1,
        Function.update stores i (plan.run handler (stores i)).2) := by
  induction plan generalizing stores with
  | done result => simp only [run, Function.update_eq_self]
  | ask command next ih =>
      simp only [run, Handler.part_apply, ih, Function.update_self, Function.update_idem]

theorem run_step (handler : Handler σ) (plan : Plan α) (s : σ) :
    (plan.step handler s).1.run handler (plan.step handler s).2 = plan.run handler s := by
  cases plan with
  | done result => rfl
  | ask command next => rfl

/-- Two plans on two stores come to what each comes to alone, whatever the turns. -/
theorem runBoth_part (apart : i ≠ j) (left right : Handler σ) (turns : List Turn)
    (p : Plan α) (q : Plan β) (stores : ι → σ) :
    runBoth (left.part i) (right.part j) turns p q stores =
      (((p.run left (stores i)).1, (q.run right (stores j)).1),
        Function.update (Function.update stores i (p.run left (stores i)).2) j
          (q.run right (stores j)).2) := by
  induction turns generalizing p q stores with
  | nil => simp only [runBoth, run_part, Function.update_of_ne apart.symm]
  | cons turn turns ih =>
      cases turn with
      | first =>
          simp only [runBoth, step_part, ih, Function.update_self, Function.update_of_ne apart.symm,
            Function.update_idem, run_step]
      | second =>
          simp only [runBoth, step_part, ih, Function.update_self,
            Function.update_of_ne apart, run_step]
          rw [Function.update_comm apart.symm, Function.update_idem]

end

end Plan

end LinkGuard
