import LinkGuard.Settings.Fault

/-! # Policies, dimensions and decisions

A policy lets so many hits through in each window. Hits are counted in two dimensions, the address
that asks and the identity that is asked about.
-/

namespace LinkGuard

/-- The longest window a policy may have, which is a year of 365 days. -/
def longestWindow : Span := .ofSeconds 31536000

/-- At most `limit` hits in each window. -/
structure Policy where
  limit : Nat
  window : Span
  limit_pos : 0 < limit
  window_pos : .zero < window
  window_le : window ≤ longestWindow

/-- The policy with that limit and window, looked at in this order. -/
def Policy.make (limit : Nat) (window : Span) : Except SettingsFault Policy :=
  if hl : 0 < limit then
    if hw : .zero < window then
      if hm : window ≤ longestWindow then .ok ⟨limit, window, hl, hw, hm⟩
      else .error (.longWindow window.seconds)
    else .error .zeroWindow
  else .error .zeroLimit

/-- What hits are counted by. -/
inductive Dimension where
  | address
  | identity
deriving DecidableEq

namespace Dimension

def tag : Dimension → String
  | address => "ip"
  | identity => "email"

def key (d : Dimension) (identifier : String) : String := d.tag ++ ":" ++ identifier

end Dimension

/-- May it go ahead, and if not, how long should the caller wait. -/
structure Decision where
  allowed : Bool
  retryAfter : Span
deriving DecidableEq

namespace Decision

def allow : Decision := ⟨true, .zero⟩

def deny (retryAfter : Span) : Decision := ⟨false, retryAfter⟩

end Decision

end LinkGuard
