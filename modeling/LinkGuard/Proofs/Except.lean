/-! # Results that may be faults

What is done with a result is done only if there is one: the first fault is the fault of the whole.
-/

namespace LinkGuard

variable {ε ε' α β : Type}

theorem bind_eq_ok {first : Except ε α} {second : α → Except ε β} {result : β} :
    first.bind second = .ok result ↔
    ∃ between, first = .ok between ∧ second between = .ok result := by
  cases first <;> simp [Except.bind]

theorem ok_bind (a : α) (next : α → Except ε β) : (Except.ok a >>= next) = next a := rfl

theorem mapError_ok (f : ε → ε') (a : α) : (Except.ok a).mapError f = .ok a := rfl

end LinkGuard
