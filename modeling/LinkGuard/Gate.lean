import LinkGuard.Limiter.Pair
import LinkGuard.Token.Codec

/-! # The gate

A request for a link is throttled first, then answered with a token; the token is later handed in to
prove the identity. An identity that a token cannot carry is turned away before it is counted.
-/

namespace LinkGuard

/-- The longest lifetime of a link, which is a year of 365 days. -/
def longestLinkTtl : Span := .ofSeconds 31536000

structure Gate where
  codec : Codec
  limiter : PairLimiter
  linkTtl : Span
  linkTtl_pos : .zero < linkTtl
  linkTtl_le : linkTtl ≤ longestLinkTtl

/-- A token and the instant up to which it was granted. -/
structure IssuedToken where
  token : String
  expiresAt : Instant
deriving DecidableEq

inductive GateError where
  | throttled (retryAfter : Span)
  | token (error : TokenError)
deriving DecidableEq

def GateError.message : GateError → String
  | throttled retryAfter => "Too many requests, retry after " ++ retryAfter.text
  | token error => error.message

inductive GateAnswer where
  | issued (token : IssuedToken)
  | refused (error : GateError)
  /-- The link would expire past the end of the calendar. The hit has been counted. -/
  | pastCalendar
deriving DecidableEq

namespace Gate

def make (codec : Codec) (limiter : PairLimiter) (linkTtl : Span) : Except SettingsFault Gate :=
  if h : .zero < linkTtl ∧ linkTtl ≤ longestLinkTtl then .ok ⟨codec, limiter, linkTtl, h.1, h.2⟩
  else .error (.linkTtlOutOfRange linkTtl)

/-- Mints the token of a request that has been admitted. -/
def issue (gate : Gate) (now : Instant) (identity : String) : GateAnswer :=
  match now.add? gate.linkTtl with
  | none => .pastCalendar
  | some expiresAt =>
    match gate.codec.mint identity expiresAt with
    | .ok token => .issued ⟨token, expiresAt⟩
    | .error e => .refused (.token e)

variable {σ : Type}

/-- Asks for a link at `now`, with the counters on the stores `left` and `right`. -/
def request (gate : Gate) (left right : Handler σ) (turns : List Turn) (now : Instant)
    (address identity : String) (s : σ) : GateAnswer × σ :=
  if Token.carries identity then
    let (decision, s) := gate.limiter.allow left right turns address identity s
    if decision.allowed then (gate.issue now identity, s)
    else (.refused (.throttled decision.retryAfter), s)
  else (.refused (.token .malformedPayload), s)

/-- The identity that a token proves at `now`. -/
def complete (gate : Gate) (now : Instant) (token : String) : Except TokenError String :=
  gate.codec.verify token now

end Gate

end LinkGuard
