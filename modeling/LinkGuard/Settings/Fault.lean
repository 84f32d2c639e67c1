import LinkGuard.Counter.Basic
import LinkGuard.Token.Basic

/-! # What can be wrong with a set-up

Faults of settings by cause, each with its wording, and the failures that end a set-up.
-/

namespace LinkGuard

inductive PortFault where
  | empty
  | badDigit
  | tooLarge
deriving DecidableEq

def PortFault.message : PortFault → String
  | empty => "cannot parse integer from empty string"
  | badDigit => "invalid digit found in string"
  | tooLarge => "number too large to fit in target type"

inductive SettingsFault where
  | zeroLimit
  | zeroWindow
  /-- A window beyond the longest one, in whole seconds. -/
  | longWindow (seconds : Nat)
  | zeroLinkTtl
  | zeroCommandTimeout
  /-- The first reconnect delay is above the last. -/
  | crossedDelays
  | linkTtlOutOfRange (ttl : Span)
  | noSentinel
  | portMissing (address : String)
  | portInvalid (address : String) (fault : PortFault)
  /-- The text or the values in it do not make settings. -/
  | unparsable
  /-- The layers do not make settings. -/
  | unloadable
  /-- A complaint in words of its own. -/
  | stated (text : String)
deriving DecidableEq

def SettingsFault.detail : SettingsFault → String
  | zeroLimit => "rate limit must allow at least one request"
  | zeroWindow => "rate limit window must be longer than zero"
  | longWindow seconds =>
    "rate limit window " ++ Numeral.ofNat seconds ++ "s exceeds the maximum of 31536000s"
  | zeroLinkTtl => "token.link_ttl_secs must be greater than zero"
  | zeroCommandTimeout => "redis.command_timeout_ms must be greater than zero"
  | crossedDelays => "redis.reconnect_min_delay_ms must not exceed reconnect_max_delay_ms"
  | linkTtlOutOfRange ttl => "link TTL " ++ ttl.text ++ " is out of range"
  | noSentinel => "redis_sentinel backend needs at least one sentinel host"
  | portMissing address => "sentinel host '" ++ address ++ "' is missing a port"
  | portInvalid address fault => "sentinel host '" ++ address ++ "': " ++ fault.message
  | unparsable => "Failed to parse configuration"
  | unloadable => "Failed to load configuration"
  | stated text => text

inductive Failure where
  | settings (fault : SettingsFault)
  | token (error : TokenError)
  | store (error : StoreError)
  | file (detail : String)
deriving DecidableEq

def Failure.message : Failure → String
  | settings fault => "Configuration error: " ++ fault.detail
  | token error => "Token error: " ++ error.message
  | store error => "Counter store error: " ++ error.message
  | file detail => "I/O error: " ++ detail

end LinkGuard
