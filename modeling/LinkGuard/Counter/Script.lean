import LinkGuard.Counter.Plan

/-! # Scripted counters

A store whose answers are written down beforehand, one list for each kind of command, and which
remembers every command it was given. With all scripts at hand it behaves in every way a store can.
-/

namespace LinkGuard

/-- The answers still to be given, and the commands taken so far, the last one first. -/
structure Script where
  hits : List (Except StoreError Hit)
  arms : List (Except StoreError Unit)
  ttls : List (Except StoreError Ttl)
  taken : List Command

namespace Script

def exhausted : StoreError := .unavailable "script exhausted"

/-- Takes the next answer of each list; arming without an answer left succeeds. -/
def handle : Handler Script
  | .increment key window, s =>
    (s.hits.headD (.error exhausted),
      { s with hits := s.hits.drop 1, taken := .increment key window :: s.taken })
  | .arm key window, s =>
    (s.arms.headD (.ok ()), { s with arms := s.arms.drop 1, taken := .arm key window :: s.taken })
  | .remaining key, s =>
    (s.ttls.headD (.error exhausted),
      { s with ttls := s.ttls.drop 1, taken := .remaining key :: s.taken })

def commands (s : Script) : List Command := s.taken.reverse

end Script

end LinkGuard
