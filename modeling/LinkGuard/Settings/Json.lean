import LinkGuard.Json
import LinkGuard.Settings.Reading

/-! # Settings as data

Settings as a tree of null, truth values, numbers, texts, arrays and objects, written and read. The
reader is exact: a whole number is never taken from a fraction or a text, and null stands only for a
credential that is not set.
-/

namespace LinkGuard

namespace Json

def compound : Json → Option (Compound Json)
  | object members => some (.table members)
  | array items => some (.row items)
  | _ => none

def text? : Json → Option String
  | text s => some s
  | _ => none

def optionalText? : Json → Option (Option String)
  | null => some none
  | text s => some (some s)
  | _ => none

def texts? : Json → Option (List String)
  | array items => items.mapM text?
  | _ => none

def below? (bound : Nat) : Json → Option Nat
  | integer (.ofNat n) => if n < bound then some n else none
  | _ => none

/-- A choice is its name, or an object with null under that name. -/
def backend? : Json → Option Backend
  | text word => Backend.ofName? word
  | object [(word, null)] => Backend.ofName? word
  | _ => none

def reading : Reading Json where
  compound := compound
  closedRows := true
  text := text?
  text? := optionalText?
  texts := texts?
  below := below?
  backend := backend?

end Json

/-- The settings that a tree holds, not yet checked. -/
def Settings.ofJson? (v : Json) : Option Settings := Json.reading.settings v

def TokenSettings.toJson (s : TokenSettings) : Json :=
  .object [("secret", .text s.secret), ("link_ttl_secs", .integer s.linkTtl.toNat)]

def PolicySettings.toJson (s : PolicySettings) : Json :=
  .object [("limit", .integer s.limit.toNat), ("window_secs", .integer s.window.toNat)]

def LimitSettings.toJson (s : LimitSettings) : Json :=
  .object [("backend", .text s.backend.name), ("email", s.identity.toJson),
    ("ip", s.address.toJson), ("store_error_cooldown_secs", .integer s.storeErrorCooldown.toNat)]

def SentinelSettings.toJson (s : SentinelSettings) : Json :=
  .object [("hosts", .array (s.hosts.map .text)), ("master_name", .text s.masterName)]

def Json.ofText? : Option String → Json
  | none => .null
  | some s => .text s

def RemoteSettings.toJson (s : RemoteSettings) : Json :=
  .object [("host", .text s.host), ("port", .integer s.port.toNat),
    ("username", .ofText? s.username), ("password", .ofText? s.password),
    ("namespace", .text s.space), ("command_timeout_ms", .integer s.commandTimeout.toNat),
    ("reconnect_max_attempts", .integer s.reconnectAttempts.toNat),
    ("reconnect_min_delay_ms", .integer s.reconnectMinDelay.toNat),
    ("reconnect_max_delay_ms", .integer s.reconnectMaxDelay.toNat), ("sentinel", s.sentinel.toJson)]

def Settings.toJson (s : Settings) : Json :=
  .object [("token", s.token.toJson), ("rate_limiting", s.limits.toJson),
    ("redis", s.remote.toJson)]

end LinkGuard
