import LinkGuard.Time.Instant

/-! # Steps

A step leads from one instant to another, forwards or backwards. Either way it is no longer than the
longest step that a calendar takes at once, so a span may be too long to be a step, and a step may
lead out of the calendar. The way between two instants of the calendar is always a step.
-/

namespace LinkGuard

structure Step where
  /-- Negative on the way back. -/
  nanos : Int
  back_le : -Span.longestStep.nanos ≤ nanos
  le_forth : nanos ≤ Span.longestStep.nanos
deriving DecidableEq

namespace Step

/-- The step that leads a span forwards, if there is one so long. -/
def ofSpan? (d : Span) : Option Step :=
  if h : d ≤ Span.longestStep then
    some ⟨d.nanos, by have := Int.natCast_nonneg d.nanos; omega, Int.ofNat_le.mpr h⟩
  else none

/-- The span that a step leads forwards. -/
def span? (step : Step) : Option Span := if 0 ≤ step.nanos then some ⟨step.nanos.toNat⟩ else none

end Step

namespace Instant

/-- The instant that a step leads to, if the calendar has it. -/
def after? (t : Instant) (step : Step) : Option Instant := ofNanos? (t.nanos + step.nanos)

/-- The step that leads from `now` to `t`. -/
def stepFrom (t now : Instant) : Step where
  nanos := t.nanos - now.nanos
  back_le := by
    have := t.first_le
    have := now.le_last
    simp only [Span.longestStep, Span.ofMillis]
    omega
  le_forth := by
    have := t.le_last
    have := now.first_le
    simp only [Span.longestStep, Span.ofMillis]
    omega

end Instant

end LinkGuard
