import LinkGuard.Text.Numeral

/-! # Spans of time

A span is a whole number of nanoseconds, never negative. Its text uses the largest of the four units
in which the whole part is not zero, and drops the zeros that end the fraction.
-/

namespace LinkGuard

structure Span where
  nanos : Nat
deriving DecidableEq

namespace Span

def zero : Span := ⟨0⟩

def ofParts (seconds nanos : Nat) : Span := ⟨seconds * 1000000000 + nanos⟩

def ofSeconds (n : Nat) : Span := ⟨n * 1000000000⟩

def ofMillis (n : Nat) : Span := ⟨n * 1000000⟩

/-- Whole seconds, the rest cut off. -/
def seconds (d : Span) : Nat := d.nanos / 1000000000

def subsecond (d : Span) : Nat := d.nanos % 1000000000

/-- Whole milliseconds, the rest cut off. -/
def millis (d : Span) : Nat := d.nanos / 1000000

def scale (n : Nat) (d : Span) : Span := ⟨n * d.nanos⟩

instance : LE Span := ⟨fun a b => a.nanos ≤ b.nanos⟩
instance : LT Span := ⟨fun a b => a.nanos < b.nanos⟩
instance (a b : Span) : Decidable (a ≤ b) := inferInstanceAs (Decidable (a.nanos ≤ b.nanos))
instance (a b : Span) : Decidable (a < b) := inferInstanceAs (Decidable (a.nanos < b.nanos))
instance : Max Span := ⟨fun a b => if a ≤ b then b else a⟩

/-- The longest step a calendar takes at once: a signed 64-bit count of milliseconds. -/
def longestStep : Span := ofMillis 9223372036854775807

/-- The digits of `n` behind the point, `places` of them, without the zeros at the end. -/
def fraction (places n : Nat) : List Char :=
  let digits := Numeral.digits n
  let padded := List.replicate (places - digits.length) '0' ++ digits
  (padded.reverse.dropWhile (· = '0')).reverse

/-- `n` counted in a unit of `10 ^ places` nanoseconds. -/
def inUnit (places n : Nat) (unit : String) : String :=
  let whole := Numeral.ofNat (n / Nat.pow 10 places)
  match fraction places (n % Nat.pow 10 places) with
  | [] => whole ++ unit
  | digits => whole ++ "." ++ String.ofList digits ++ unit

def text (d : Span) : String :=
  if 1000000000 ≤ d.nanos then inUnit 9 d.nanos "s"
  else if 1000000 ≤ d.nanos then inUnit 6 d.nanos "ms"
  else if 1000 ≤ d.nanos then inUnit 3 d.nanos "µs"
  else inUnit 0 d.nanos "ns"

end Span

end LinkGuard
