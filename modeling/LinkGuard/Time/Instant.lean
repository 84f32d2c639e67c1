import LinkGuard.Time.Span

/-! # Instants

An instant counts nanoseconds from the start of 1970 and lies inside the calendar, whose first and
last nanosecond are fixed here. Adding a span fails exactly where the sum lies past the last one.
Every second of the calendar has a thousand million nanoseconds: instants inside a leap second,
which a clock that counts from 1970 never shows, are left out.
-/

namespace LinkGuard

@[ext] structure Instant where
  nanos : Int
  first_le : -8334601228800000000000 ≤ nanos
  le_last : nanos ≤ 8210266876799999999999
deriving DecidableEq

namespace Instant

def epoch : Instant := ⟨0, by decide, by decide⟩

def last : Instant := ⟨8210266876799999999999, by decide, by decide⟩

/-- The instant at that count of nanoseconds, if the calendar has it. -/
def ofNanos? (n : Int) : Option Instant :=
  if h : -8334601228800000000000 ≤ n ∧ n ≤ 8210266876799999999999 then some ⟨n, h.1, h.2⟩ else none

def ofSecond? (s : Int) : Option Instant := ofNanos? (s * 1000000000)

/-- The second an instant lies in, rounded towards the past. -/
def second (t : Instant) : Int := t.nanos.fdiv 1000000000

/-- The nanoseconds since that second began. -/
def subsecond (t : Instant) : Nat := (t.nanos.fmod 1000000000).toNat

instance : LE Instant := ⟨fun a b => a.nanos ≤ b.nanos⟩
instance : LT Instant := ⟨fun a b => a.nanos < b.nanos⟩
instance (a b : Instant) : Decidable (a ≤ b) := inferInstanceAs (Decidable (a.nanos ≤ b.nanos))
instance (a b : Instant) : Decidable (a < b) := inferInstanceAs (Decidable (a.nanos < b.nanos))

def add? (t : Instant) (d : Span) : Option Instant := ofNanos? (t.nanos + d.nanos)

/-- The span from `now` to `t`, zero once `t` has passed. -/
def since (t now : Instant) : Span := ⟨(t.nanos - now.nanos).toNat⟩

end Instant

end LinkGuard
