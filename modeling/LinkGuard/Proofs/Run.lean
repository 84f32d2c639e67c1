/-! # Runs

A machine answers an input in a state and moves to the next state. What every step keeps, a run
keeps, and an answer in a run depends on the inputs before it alone.
-/

namespace LinkGuard

/-- What an input makes of a state: an answer and the next state. -/
abbrev Machine (ι σ α : Type) := ι → σ → α × σ

namespace Machine

variable {ι κ σ τ α : Type} (machine : Machine ι σ α)

def reached : List ι → σ → σ
  | [], s => s
  | input :: rest, s => reached rest (machine input s).2

def answers : List ι → σ → List α
  | [], _ => []
  | input :: rest, s => (machine input s).1 :: answers rest (machine input s).2

theorem reached_append (before after : List ι) (s : σ) :
    reached machine (before ++ after) s = reached machine after (reached machine before s) := by
  induction before generalizing s with
  | nil => rfl
  | cons input rest ih => exact ih _

theorem answers_append (before after : List ι) (s : σ) :
    answers machine (before ++ after) s =
      answers machine before s ++ answers machine after (reached machine before s) := by
  induction before generalizing s with
  | nil => rfl
  | cons input rest ih => exact congrArg (List.cons _) (ih _)

@[simp] theorem length_answers (inputs : List ι) (s : σ) :
    (answers machine inputs s).length = inputs.length := by
  induction inputs generalizing s with
  | nil => rfl
  | cons input rest ih => exact congrArg (· + 1) (ih _)

theorem answers_getElem? (inputs : List ι) (s : σ) (i : Nat) :
    (answers machine inputs s)[i]? =
      inputs[i]?.map fun input => (machine input (reached machine (inputs.take i) s)).1 := by
  induction inputs generalizing s i with
  | nil => rfl
  | cons input rest ih =>
      cases i with
      | zero => rfl
      | succ i =>
          simpa only [answers, reached, List.getElem?_cons_succ, List.take_succ_cons] using ih _ i

theorem answers_take (inputs : List ι) (s : σ) (i : Nat) :
    answers machine (inputs.take i) s = (answers machine inputs s).take i := by
  induction inputs generalizing s i with
  | nil => simp [answers]
  | cons input rest ih =>
      cases i with
      | zero => rfl
      | succ i => exact congrArg (List.cons _) (ih _ i)

/-- The state before the `j`-th input, with the `i`-th one before it singled out. -/
theorem reached_take_of_lt {inputs : List ι} {input : ι} {i j : Nat}
    (found : inputs[i]? = some input) (before : i < j) (s : σ) :
    reached machine (inputs.take j) s =
      reached machine ((inputs.take j).drop (i + 1))
        (machine input (reached machine (inputs.take i) s)).2 := by
  have upTo : (inputs.take j).take (i + 1) = inputs.take i ++ [input] := by
    rw [List.take_take, Nat.min_eq_left before, List.take_add_one, found]
    rfl
  calc
    reached machine (inputs.take j) s =
        reached machine ((inputs.take i ++ [input]) ++ (inputs.take j).drop (i + 1)) s := by
      rw [← upTo, List.take_append_drop]
    _ = reached machine ((inputs.take j).drop (i + 1))
        (machine input (reached machine (inputs.take i) s)).2 := by
      rw [reached_append, reached_append]
      rfl

theorem run_replicate {machine : Machine ι σ α} {R : Nat → σ → Prop} {input : ι} {answer : Nat → α}
    (step : ∀ count s, R count s →
      (machine input s).1 = answer count ∧ R (count + 1) (machine input s).2)
    (n count : Nat) {s : σ} (start : R count s) :
    answers machine (List.replicate n input) s = (List.range' count n).map answer ∧
      R (count + n) (reached machine (List.replicate n input) s) := by
  induction n generalizing count s with
  | zero => exact ⟨rfl, start⟩
  | succ n ih =>
      obtain ⟨first, next⟩ := step count s start
      obtain ⟨later, last⟩ := ih (count + 1) next
      rw [Nat.add_right_comm, Nat.add_assoc] at last
      refine ⟨?_, last⟩
      rw [List.replicate_succ, answers, first, later, List.range'_succ, List.map_cons]

/-- So it is after each of these inputs. -/
def Throughout (P : σ → Prop) : List ι → σ → Prop
  | [], _ => True
  | input :: rest, s => P (machine input s).2 ∧ Throughout P rest (machine input s).2

theorem reached_keeps {P : σ → Prop} (inputs : List ι)
    (keeps : ∀ input ∈ inputs, ∀ s, P s → P (machine input s).2) {s : σ} (start : P s) :
    P (reached machine inputs s) := by
  induction inputs generalizing s with
  | nil => exact start
  | cons input rest ih =>
      apply ih (fun later member => keeps later (List.mem_cons_of_mem _ member))
      exact keeps input List.mem_cons_self s start

/-- The answers of a run to the inputs that are picked out of it. -/
def answersTo (pick : ι → Option κ) (inputs : List ι) (s : σ) : List α :=
  (inputs.zip (answers machine inputs s)).filterMap fun (input, answer) =>
    (pick input).map fun _ => answer

theorem answersTo_cons (pick : ι → Option κ) (input : ι) (rest : List ι) (s : σ) :
    answersTo machine pick (input :: rest) s =
      ((pick input).map fun _ => (machine input s).1).toList ++
        answersTo machine pick rest (machine input s).2 := by
  simp only [answersTo, answers, List.zip_cons_cons, List.filterMap_cons]
  cases pick input <;> rfl

/-- Inputs that leave a state as good as it was may be left out of a run: what is picked out of it,
put to another machine in a state that is as good, is answered as it was. -/
theorem run_picked {machine : Machine ι σ α} {machine' : Machine κ τ α} {pick : ι → Option κ}
    {R : σ → τ → Prop} (passed : ∀ input s t, pick input = none → R s t → R (machine input s).2 t)
    (picked : ∀ input input' s t, pick input = some input' → R s t →
      (machine input s).1 = (machine' input' t).1 ∧ R (machine input s).2 (machine' input' t).2)
    (inputs : List ι) {s : σ} {t : τ} (start : R s t) :
    answersTo machine pick inputs s = answers machine' (inputs.filterMap pick) t ∧
      R (reached machine inputs s) (reached machine' (inputs.filterMap pick) t) := by
  induction inputs generalizing s t with
  | nil => exact ⟨rfl, start⟩
  | cons input rest ih =>
      rw [answersTo_cons, List.filterMap_cons]
      cases own : pick input with
      | none => exact ih (passed input s t own start)
      | some input' =>
          obtain ⟨same, related⟩ := picked input input' s t own start
          obtain ⟨later, last⟩ := ih related
          refine ⟨?_, last⟩
          simp only [Option.map_some, Option.toList_some, List.singleton_append,
            answers, same, later]

end Machine

end LinkGuard
