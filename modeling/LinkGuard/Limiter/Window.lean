import LinkGuard.Counter.Plan
import LinkGuard.Limiter.Policy

/-! # One policy on one key

A window opens with the first hit of a key, never slides, and empties as a whole when it closes. The
limiter keeps nothing itself: a hit is one command to a store, and a second one where the store left
the window open at its end.
-/

namespace LinkGuard.Policy

/-- What follows from a hit: an answer at once, or the key has to be armed before the hit is
    allowed. -/
inductive Verdict where
  | settled (decision : Decision)
  | armThenAllow
deriving DecidableEq

/-- The first hit of a window is allowed, and arms it if the store did not. Later ones are allowed
up to the limit. Beyond it, a window that runs makes the caller wait for its end, one that is over
starts anew, and one that will never end makes the caller wait a whole window each time. -/
def judge (policy : Policy) (hit : Hit) : Verdict :=
  if hit.count = 1 then
    if hit.ttl = .unarmed then .armThenAllow else .settled .allow
  else if hit.count ≤ policy.limit then .settled .allow
  else match hit.ttl with
    | .live remaining => .settled (.deny remaining)
    | .gone => .armThenAllow
    | .unarmed => .settled (.deny policy.window)

/-- Counts a hit for `key` and decides on it. -/
def allow (policy : Policy) (key : String) : Plan (Except StoreError Decision) :=
  .ask (.increment key policy.window) fun
    | .error e => .done (.error e)
    | .ok hit =>
      match policy.judge hit with
      | .settled decision => .done (.ok decision)
      | .armThenAllow => .ask (.arm key policy.window) fun
        | .error e => .done (.error e)
        | .ok () => .done (.ok .allow)

/-- The wait that a lifetime stands for: none without a window, a whole window if it will never
    end. -/
def wait (policy : Policy) : Ttl → Span
  | .live remaining => remaining
  | .unarmed => policy.window
  | .gone => .zero

/-- The wait for `key`, without counting a hit. -/
def cooldown (policy : Policy) (key : String) : Plan (Except StoreError Span) :=
  .ask (.remaining key) fun
    | .error e => .done (.error e)
    | .ok ttl => .done (.ok (policy.wait ttl))

end LinkGuard.Policy
