import LinkGuard.Limiter.Window

/-! # Address and identity together

Both counters are counted up on every call, whatever the other one says. If a store gives no answer,
the call is denied for a span that is set beforehand.
-/

namespace LinkGuard

/-- One policy for each dimension, and the wait that stands in for a store without an answer. -/
structure PairLimiter where
  address : Policy
  identity : Policy
  storeErrorCooldown : Span

namespace PairLimiter

/-- The wait that stands in for a store without an answer, unless another is set. -/
def defaultCooldown : Span := .ofSeconds 1800

def addressPlan (limiter : PairLimiter) (address : String) : Plan (Except StoreError Decision) :=
  limiter.address.allow (Dimension.address.key address)

def identityPlan (limiter : PairLimiter) (identity : String) : Plan (Except StoreError Decision) :=
  limiter.identity.allow (Dimension.identity.key identity)

/-- One decision out of two: both have to allow, and the longer wait counts. -/
def settle (limiter : PairLimiter) :
    Except StoreError Decision → Except StoreError Decision → Decision
  | .ok a, .ok b =>
    if a.allowed && b.allowed then .allow else .deny (max a.retryAfter b.retryAfter)
  | _, _ => .deny limiter.storeErrorCooldown

/-- One wait out of two. -/
def settleWait (limiter : PairLimiter) : Except StoreError Span → Except StoreError Span → Span
  | .ok a, .ok b => max a b
  | _, _ => limiter.storeErrorCooldown

variable {σ : Type}

/-- Counts a hit in both dimensions, on the stores `left` and `right`, and decides on it. -/
def allow (limiter : PairLimiter) (left right : Handler σ) (turns : List Turn)
    (address identity : String) (s : σ) : Decision × σ :=
  let ((a, b), s) :=
    Plan.runBoth left right turns (limiter.addressPlan address) (limiter.identityPlan identity) s
  (limiter.settle a b, s)

/-- The wait for an address and an identity, without counting a hit. -/
def cooldown (limiter : PairLimiter) (left right : Handler σ) (turns : List Turn)
    (address identity : String) (s : σ) : Span × σ :=
  let ((a, b), s) := Plan.runBoth left right turns
    (limiter.address.cooldown (Dimension.address.key address))
    (limiter.identity.cooldown (Dimension.identity.key identity)) s
  (limiter.settleWait a b, s)

end PairLimiter

end LinkGuard
