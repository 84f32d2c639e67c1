import LinkGuard.Settings.Basic

/-! # Reading settings out of values

Settings are read in the same way out of every kind of value: a record is a table with a member for
each field, or for some kinds of value also a row of the fields in order. A field that is absent
takes the standard value that is written here for it, if there is one; members that name no field
are passed over. What differs from kind to kind is how a single text, number or choice is taken from
a value.
-/

namespace LinkGuard

/-- A value that may hold a record. -/
inductive Compound (ν : Type) where
  | table (members : List (String × ν))
  | row (items : List ν)

/-- How values of one kind are taken. -/
structure Reading (ν : Type) where
  compound : ν → Option (Compound ν)
  /-- A row with more items than there are fields is refused. -/
  closedRows : Bool
  text : ν → Option String
  /-- A text, or nothing. -/
  text? : ν → Option (Option String)
  texts : ν → Option (List String)
  /-- A number below a bound. -/
  below : Nat → ν → Option Nat
  backend : ν → Option Backend

namespace Compound

variable {ν α : Type}

/-- The value of the field with that place and name: `none` if it is there twice. -/
def slot (place : Nat) (name : String) : Compound ν → Option (Option ν)
  | row items => some items[place]?
  | table members =>
    match members.filter fun m => m.1 = name with
    | [] => some none
    | [m] => some (some m.2)
    | _ => none

def defaulted (c : Compound ν) (place : Nat) (name : String) (standard : α) (read : ν → Option α) :
    Option α :=
  match c.slot place name with
  | none => none
  | some none => some standard
  | some (some v) => read v

def required (c : Compound ν) (place : Nat) (name : String) (read : ν → Option α) : Option α :=
  match c.slot place name with
  | some (some v) => read v
  | _ => none

end Compound

namespace Reading

variable {ν : Type}

def word16 (r : Reading ν) (v : ν) : Option UInt16 := (r.below UInt16.size v).map UInt16.ofNat

def word32 (r : Reading ν) (v : ν) : Option UInt32 := (r.below UInt32.size v).map UInt32.ofNat

def word64 (r : Reading ν) (v : ν) : Option UInt64 := (r.below UInt64.size v).map UInt64.ofNat

/-- The record of `size` fields that a value holds. -/
def record (r : Reading ν) (size : Nat) (v : ν) : Option (Compound ν) :=
  match r.compound v with
  | some (.row items) => if r.closedRows && size < items.length then none else some (.row items)
  | other => other

def token (r : Reading ν) (v : ν) : Option TokenSettings := do
  let c ← r.record 2 v
  return {
    secret := ← c.defaulted 0 "secret" "" r.text
    linkTtl := ← c.defaulted 1 "link_ttl_secs" 900 r.word64 }

def policy (r : Reading ν) (v : ν) : Option PolicySettings := do
  let c ← r.record 2 v
  let limit ← c.required 0 "limit" r.word32
  return { limit, window := ← c.defaulted 1 "window_secs" 1800 r.word64 }

def limits (r : Reading ν) (v : ν) : Option LimitSettings := do
  let c ← r.record 4 v
  return {
    backend := ← c.defaulted 0 "backend" .memory r.backend
    identity := ← c.defaulted 1 "email" ⟨3, 1800⟩ r.policy
    address := ← c.defaulted 2 "ip" ⟨10, 1800⟩ r.policy
    storeErrorCooldown := ← c.defaulted 3 "store_error_cooldown_secs" 1800 r.word64 }

def sentinel (r : Reading ν) (v : ν) : Option SentinelSettings := do
  let c ← r.record 2 v
  return {
    hosts := ← c.defaulted 0 "hosts" [] r.texts
    masterName := ← c.defaulted 1 "master_name" "mymaster" r.text }

def remote (r : Reading ν) (v : ν) : Option RemoteSettings := do
  let c ← r.record 10 v
  return {
    host := ← c.defaulted 0 "host" "127.0.0.1" r.text
    port := ← c.defaulted 1 "port" 6379 r.word16
    username := ← c.defaulted 2 "username" none r.text?
    password := ← c.defaulted 3 "password" none r.text?
    space := ← c.defaulted 4 "namespace" "verigate" r.text
    commandTimeout := ← c.defaulted 5 "command_timeout_ms" 500 r.word64
    reconnectAttempts := ← c.defaulted 6 "reconnect_max_attempts" 0 r.word32
    reconnectMinDelay := ← c.defaulted 7 "reconnect_min_delay_ms" 100 r.word32
    reconnectMaxDelay := ← c.defaulted 8 "reconnect_max_delay_ms" 30000 r.word32
    sentinel := ← c.defaulted 9 "sentinel" {} r.sentinel }

/-- The settings that a value holds, not yet checked. -/
def settings (r : Reading ν) (v : ν) : Option Settings := do
  let c ← r.record 3 v
  return {
    token := ← c.defaulted 0 "token" {} r.token
    limits := ← c.defaulted 1 "rate_limiting" {} r.limits
    remote := ← c.defaulted 2 "redis" {} r.remote }

end Reading

end LinkGuard
