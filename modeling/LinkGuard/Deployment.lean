import LinkGuard.Counter.Connect
import LinkGuard.Site

/-! # Deployments

A limiter or a gate together with the places of its two stores in the site, and how they are set up
out of settings: the store first, then the address policy, then the identity policy.
-/

namespace LinkGuard

structure PlacedLimiter where
  limiter : PairLimiter
  addressPlace : Nat
  identityPlace : Nat

namespace PlacedLimiter

/-- A call whose two evaluations take these turns. -/
def allowIn (placed : PlacedLimiter) (turns : List Turn) (address identity : String) (site : Site) :
    Decision × Site :=
  placed.limiter.allow (Site.handler placed.addressPlace) (Site.handler placed.identityPlace) turns
    address identity site

def allow (placed : PlacedLimiter) (address identity : String) (site : Site) : Decision × Site :=
  placed.allowIn (site.turns placed.addressPlace placed.identityPlace) address identity site

def cooldown (placed : PlacedLimiter) (address identity : String) (site : Site) : Span × Site :=
  placed.limiter.cooldown (Site.handler placed.addressPlace) (Site.handler placed.identityPlace)
    (site.turns placed.addressPlace placed.identityPlace) address identity site

end PlacedLimiter

structure PlacedGate where
  gate : Gate
  addressPlace : Nat
  identityPlace : Nat

namespace PlacedGate

def request (placed : PlacedGate) (address identity : String) (site : Site) : GateAnswer × Site :=
  placed.gate.request (Site.handler placed.addressPlace) (Site.handler placed.identityPlace)
    (site.turns placed.addressPlace placed.identityPlace) site.now address identity site

end PlacedGate

namespace Settings

def openStore (settings : Settings) (network : Remote.Network) (server : Remote.Server) :
    Except Failure (Store × Remote.Server) :=
  match settings.limits.backend with
  | .memory => .ok (.table .empty, server)
  | backend =>
    match Remote.connect network settings.remote backend server with
    | .error e => .error e
    | .ok (store, server) => .ok (.remote store false, server)

/-- Adds the store that the settings ask for to a site, and sets up the limiter on it. -/
def openLimiter (settings : Settings) (network : Remote.Network) (site : Site) :
    Except Failure (PlacedLimiter × Site) := do
  let (store, server) ← settings.openStore network site.server
  let (place, site) := { site with server }.add store
  let address ← settings.limits.address.policy.mapError .settings
  let identity ← settings.limits.identity.policy.mapError .settings
  return (⟨⟨address, identity, settings.limits.cooldown⟩, place, place⟩, site)

/-- Sets up the whole gate: the codec, the limiter, then the lifetime of links. -/
def openGate (settings : Settings) (network : Remote.Network) (site : Site) :
    Except Failure (PlacedGate × Site) := do
  let codec ← (Codec.ofSecret (Text.bytes settings.token.secret)).mapError .token
  let (placed, site) ← settings.openLimiter network site
  let gate ← (Gate.make codec placed.limiter settings.linkTtl).mapError .settings
  return (⟨gate, placed.addressPlace, placed.identityPlace⟩, site)

end Settings

end LinkGuard
