import LinkGuard.Limiter.Policy

/-! # Settings

What a deployment can set, with the value each setting has when nothing is said about it, and the
checks that settings have to pass before they are used.
-/

namespace LinkGuard

structure TokenSettings where
  secret : String := ""
  /-- Lifetime of a link in seconds. -/
  linkTtl : UInt64 := 900
deriving DecidableEq

inductive Backend where
  | memory
  | redis
  | redisSentinel
deriving DecidableEq

structure PolicySettings where
  limit : UInt32
  /-- Length of the window in seconds. -/
  window : UInt64 := 1800
deriving DecidableEq

structure LimitSettings where
  backend : Backend := .memory
  identity : PolicySettings := { limit := 3 }
  address : PolicySettings := { limit := 10 }
  /-- The wait that stands in for a store without an answer, in seconds. -/
  storeErrorCooldown : UInt64 := 1800
deriving DecidableEq

structure SentinelSettings where
  /-- Addresses of the form `host:port`. -/
  hosts : List String := []
  masterName : String := "mymaster"
deriving DecidableEq

structure RemoteSettings where
  host : String := "127.0.0.1"
  port : UInt16 := 6379
  username : Option String := none
  password : Option String := none
  /-- The first part of the name of every row. -/
  space : String := "verigate"
  /-- How long a request may take, in milliseconds. -/
  commandTimeout : UInt64 := 500
  /-- How often a lost connection is tried again, 0 for ever. -/
  reconnectAttempts : UInt32 := 0
  /-- The first wait before a connection is tried again, in milliseconds. -/
  reconnectMinDelay : UInt32 := 100
  /-- The longest such wait, in milliseconds. -/
  reconnectMaxDelay : UInt32 := 30000
  sentinel : SentinelSettings := {}
deriving DecidableEq

structure Settings where
  token : TokenSettings := {}
  limits : LimitSettings := {}
  remote : RemoteSettings := {}
deriving DecidableEq

/-- What may be logged of the token settings. -/
def TokenSettings.summary (s : TokenSettings) : String :=
  "TokenConfig \x7b secret: \"<redacted>\", link_ttl_secs: " ++ Numeral.ofNat s.linkTtl.toNat ++
    " \x7d"

namespace Backend

def name : Backend → String
  | memory => "memory"
  | redis => "redis"
  | redisSentinel => "redis_sentinel"

/-- Every word that means a backend. -/
def names : List (String × Backend) :=
  [("memory", memory), ("inmemory", memory), ("redis", redis), ("redis_sentinel", redisSentinel)]

def ofName? (word : String) : Option Backend := names.lookup word

end Backend

def PolicySettings.policy (s : PolicySettings) : Except SettingsFault Policy :=
  Policy.make s.limit.toNat (.ofSeconds s.window.toNat)

def LimitSettings.cooldown (s : LimitSettings) : Span := .ofSeconds s.storeErrorCooldown.toNat

def RemoteSettings.deadline (s : RemoteSettings) : Span := .ofMillis s.commandTimeout.toNat

namespace Settings

def linkTtl (s : Settings) : Span := .ofSeconds s.token.linkTtl.toNat

/-- The checks, in the order in which a fault is reported. -/
def validate (s : Settings) : Except SettingsFault Unit := do
  let _ ← s.limits.identity.policy
  let _ ← s.limits.address.policy
  if s.token.linkTtl = 0 then throw .zeroLinkTtl
  if s.remote.commandTimeout = 0 then throw .zeroCommandTimeout
  if s.remote.reconnectMaxDelay < s.remote.reconnectMinDelay then throw .crossedDelays

/-- Settings that pass the checks; `fault` if there are none. -/
def checked (fault : SettingsFault) : Option Settings → Except SettingsFault Settings
  | none => .error fault
  | some s => do
    s.validate
    return s

end Settings

end LinkGuard
