import LinkGuard.Proofs.Counter.Plan

/-! # What passes between a plan and its store

A store can be watched: it goes on as before and notes each command beside the answer it gave. What
is noted of a plan leads it from its first command to its result, also when another plan runs beside
it, in whatever order the two give their commands.
-/

namespace LinkGuard

/-- A command and what it was answered. -/
structure Exchange where
  command : Command
  answer : Except StoreError command.Answer

def Exchange.Failed (exchange : Exchange) : Prop := ∃ e, exchange.answer = .error e

section

variable {μ σ : Type} [DecidableEq μ] {mark other : μ}

/-- The store, watched under a mark: what passes is put behind the notes there are. -/
def Handler.noting (mark : μ) (handler : Handler σ) : Handler (σ × List (μ × Exchange)) :=
  fun command (s, notes) =>
    let (answer, s) := handler command s
    (answer, s, notes ++ [(mark, ⟨command, answer⟩)])

/-- What was noted under a mark. -/
def noted (mark : μ) (notes : List (μ × Exchange)) : List Exchange :=
  notes.filterMap fun (under, exchange) => if under = mark then some exchange else none

theorem noted_append (notes more : List (μ × Exchange)) :
    noted mark (notes ++ more) = noted mark notes ++ noted mark more :=
  List.filterMap_append

theorem noted_cons_self (exchange : Exchange) (notes : List (μ × Exchange)) :
    noted mark ((mark, exchange) :: notes) = exchange :: noted mark notes := by
  simp only [noted, List.filterMap_cons, if_true]

theorem noted_cons_of_ne (apart : mark ≠ other) (exchange : Exchange)
    (notes : List (μ × Exchange)) :
    noted other ((mark, exchange) :: notes) = noted other notes := by
  simp only [noted, List.filterMap_cons, apart, if_false]

end

namespace Plan

variable {μ σ α β : Type} [DecidableEq μ] {mark other : μ}

/-- These exchanges lead a plan to its result. -/
inductive Yields : Plan α → List Exchange → α → Prop where
  | done {result : α} : Yields (.done result) [] result
  | ask {command : Command} {next : Except StoreError command.Answer → Plan α}
      {answer : Except StoreError command.Answer} {rest : List Exchange} {result : α}
      (later : Yields (next answer) rest result) :
      Yields (.ask command next) (⟨command, answer⟩ :: rest) result

theorem step_noting (apart : mark ≠ other) (handler : Handler σ) (plan : Plan α) (s : σ)
    (notes : List (μ × Exchange)) :
    ∃ later, plan.step (Handler.noting mark handler) (s, notes) =
        ((plan.step handler s).1, (plan.step handler s).2, notes ++ later) ∧
      noted other later = [] ∧
      ∀ rest result, (plan.step handler s).1.Yields rest result →
        plan.Yields (noted mark later ++ rest) result := by
  cases plan with
  | done result => exact ⟨[], by rw [List.append_nil]; rfl, rfl, fun _ _ yields => yields⟩
  | ask command next =>
      refine ⟨[(mark, ⟨command, (handler command s).1⟩)], rfl, noted_cons_of_ne apart _ _, ?_⟩
      intro rest result yields
      rw [noted_cons_self]
      exact .ask yields

theorem run_noting (apart : mark ≠ other) (handler : Handler σ) (plan : Plan α) (s : σ)
    (notes : List (μ × Exchange)) :
    ∃ later, plan.run (Handler.noting mark handler) (s, notes) =
        ((plan.run handler s).1, (plan.run handler s).2, notes ++ later) ∧
      noted other later = [] ∧ plan.Yields (noted mark later) (plan.run handler s).1 := by
  induction plan generalizing s notes with
  | done result => exact ⟨[], by rw [List.append_nil]; rfl, rfl, .done⟩
  | ask command next ih =>
      obtain ⟨later, same, silent, yields⟩ := ih (handler command s).1 (handler command s).2
        (notes ++ [(mark, ⟨command, (handler command s).1⟩)])
      rw [List.append_assoc] at same
      refine ⟨(mark, ⟨command, (handler command s).1⟩) :: later, same, ?_, ?_⟩
      · rw [noted_cons_of_ne apart, silent]
      · rw [noted_cons_self]
        exact .ask yields

/-- Two plans side by side are not disturbed by their stores being watched under two marks, and what
    is noted under each mark leads the plan of that store to its result. -/
theorem runBoth_noting {first second : μ} (apart : first ≠ second) (left right : Handler σ)
    (turns : List Turn) (p : Plan α) (q : Plan β) (s : σ) (notes : List (μ × Exchange)) :
    ∃ later,
      runBoth (Handler.noting first left) (Handler.noting second right) turns p q (s, notes) =
        ((runBoth left right turns p q s).1, (runBoth left right turns p q s).2, notes ++ later) ∧
      p.Yields (noted first later) (runBoth left right turns p q s).1.1 ∧
      q.Yields (noted second later) (runBoth left right turns p q s).1.2 := by
  -- A turn moves one plan by a command and leaves the other as it is, so what it adds stands under
  -- one mark only.
  induction turns generalizing p q s notes with
  | nil =>
      obtain ⟨before, same, silent, yields⟩ := run_noting apart left p s notes
      obtain ⟨after, same', silent', yields'⟩ :=
        run_noting apart.symm right q (p.run left s).2 (notes ++ before)
      refine ⟨before ++ after, ?_, ?_, ?_⟩
      · simp only [runBoth, same, same', List.append_assoc]
      · rw [noted_append, silent', List.append_nil]
        exact yields
      · rw [noted_append, silent, List.nil_append]
        exact yields'
  | cons turn turns ih =>
      cases turn with
      | first =>
          obtain ⟨told, same, silent, leads⟩ := step_noting apart left p s notes
          obtain ⟨later, same', yields, yields'⟩ :=
            ih (p.step left s).1 q (p.step left s).2 (notes ++ told)
          refine ⟨told ++ later, ?_, ?_, ?_⟩
          · simp only [runBoth, same, same', List.append_assoc]
          · rw [noted_append]
            exact leads _ _ yields
          · rw [noted_append, silent, List.nil_append]
            exact yields'
      | second =>
          obtain ⟨told, same, silent, leads⟩ := step_noting apart.symm right q s notes
          obtain ⟨later, same', yields, yields'⟩ :=
            ih p (q.step right s).1 (q.step right s).2 (notes ++ told)
          refine ⟨told ++ later, ?_, ?_, ?_⟩
          · simp only [runBoth, same, same', List.append_assoc]
          · rw [noted_append, silent, List.nil_append]
            exact yields
          · rw [noted_append]
            exact leads _ _ yields'

end Plan

end LinkGuard
