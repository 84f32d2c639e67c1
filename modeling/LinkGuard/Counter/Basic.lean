import LinkGuard.Time.Span

/-! # Counters

What a counter store answers: the count of a key after a hit, how long its window still runs, or why
the store cannot say.
-/

namespace LinkGuard

/-- How long a counter still lives. -/
inductive Ttl where
  /-- Its window ends after this span. -/
  | live (remaining : Span)
  /-- It is there, and no end was set for its window. -/
  | unarmed
  /-- It is not there, or its window is over. -/
  | gone
deriving DecidableEq

/-- The lifetime that a server reports as a count of milliseconds, with -1 for a counter without an
    end. -/
def Ttl.ofReply (millis : Int) : Ttl :=
  if millis = -1 then .unarmed
  else if 0 < millis then .live (.ofMillis millis.toNat)
  else .gone

/-- A counter right after it was counted up. -/
structure Hit where
  count : Nat
  ttl : Ttl
deriving DecidableEq

inductive StoreError where
  /-- It cannot be reached. -/
  | unavailable (detail : String)
  /-- It did not answer within this span. -/
  | timeout (deadline : Span)
  /-- The end of this window lies past the calendar or the range of the store. -/
  | windowOutOfRange (window : Span)
  /-- It answered with an error, or with something that is no answer. -/
  | refused (detail : String)
deriving DecidableEq

def StoreError.message : StoreError → String
  | unavailable detail => "Counter store unavailable: " ++ detail
  | timeout deadline => "Counter store command timed out after " ++ deadline.text
  | windowOutOfRange window => "Window " ++ window.text ++ " is out of range"
  | refused detail => "Redis error: " ++ detail

end LinkGuard
