import LinkGuard.Counter.Remote
import LinkGuard.Settings.Sentinel

/-! # Connecting to a remote store

A store is reached directly, or through sentinels that name the master. Sentinel addresses are read
before anything is contacted; sentinels are asked in order until one answers.
-/

namespace LinkGuard.Remote

/-- What a connection to an endpoint meets. -/
inductive Peer where
  /-- No way leads there. -/
  | unreachable
  /-- Nobody listens there. -/
  | closed
  /-- Somebody listens and never answers. -/
  | mute
  /-- The server answers, and as a sentinel names itself the master. -/
  | server
deriving DecidableEq

abbrev Network := Endpoint → Peer

def Network.isolated : Network := fun _ => .unreachable

/-- The command that proves who connects, if a password is set. -/
def credentials (settings : RemoteSettings) : List (List String) :=
  match settings.username, settings.password with
  | _, none => []
  | none, some password => [["AUTH", password]]
  | some user, some password => [["AUTH", user, password]]

def connectDeadline (settings : RemoteSettings) : Span := settings.deadline.scale 10

/-- What came of asking endpoints. -/
structure Attempt (α : Type) where
  /-- Those that were asked, in order. -/
  asked : List Endpoint
  outcome : α

/-- Asks the sentinels for the master, in order; the last one that cannot be asked decides. -/
def locate (network : Network) (settings : RemoteSettings) :
    List Endpoint → Attempt (Except StoreError Unit)
  | [] => ⟨[], .error (.refused "no sentinel left to ask")⟩
  | endpoint :: others =>
    let further := locate network settings others
    match network endpoint with
    | .server => ⟨[endpoint], .ok ()⟩
    | .mute => ⟨[endpoint], .error (.timeout (connectDeadline settings))⟩
    | .closed =>
      if others.isEmpty then ⟨[endpoint], .error (.unavailable "connection refused")⟩
      else ⟨endpoint :: further.asked, further.outcome⟩
    | .unreachable =>
      if others.isEmpty then ⟨[endpoint], .error (.refused "no sentinel could be asked")⟩
      else ⟨endpoint :: further.asked, further.outcome⟩

def reach (network : Network) (settings : RemoteSettings) (endpoint : Endpoint) :
    Attempt (Except StoreError Unit) where
  asked := [endpoint]
  outcome :=
    match network endpoint with
    | .server => .ok ()
    | .mute => .error (.timeout (connectDeadline settings))
    | .closed => .error (.unavailable "connection refused")
    | .unreachable => .error (.unavailable "network unreachable")

/-- The endpoints that sentinels listen at: all have to be readable, and there has to be one. -/
def sentinels (settings : RemoteSettings) : Except SettingsFault (List Endpoint) :=
  match Endpoint.parseAll settings.sentinel.hosts with
  | .error fault => .error fault
  | .ok [] => .error .noSentinel
  | .ok endpoints => .ok endpoints

/-- The commands that open a connection, as the server sees them. -/
def greetings (settings : RemoteSettings) : Backend → List (List String)
  | .redisSentinel =>
    credentials settings ++
      [["SENTINEL", "GET-MASTER-ADDR-BY-NAME", settings.sentinel.masterName],
        ["SENTINEL", "SENTINELS", settings.sentinel.masterName]]
  | _ => credentials settings

/-- Tries to connect to the store that settings describe, through sentinels for that backend and
directly for others. -/
def attempt (network : Network) (settings : RemoteSettings) (backend : Backend) (server : Server) :
    Attempt (Except Failure (Store × Server)) :=
  let connected : Store × Server :=
    (⟨settings.space, settings.deadline⟩, (greetings settings backend).foldl Server.greet server)
  let conclude (found : Attempt (Except StoreError Unit)) :
      Attempt (Except Failure (Store × Server)) :=
    match found.outcome with
    | .error e => ⟨found.asked, .error (.store e)⟩
    | .ok () => ⟨found.asked, .ok connected⟩
  match backend with
  | .redisSentinel =>
    match sentinels settings with
    | .error fault => ⟨[], .error (.settings fault)⟩
    | .ok endpoints => conclude (locate network settings endpoints)
  | _ => conclude (reach network settings ⟨settings.host, settings.port.toNat⟩)

/-- What comes of it. -/
def connect (network : Network) (settings : RemoteSettings) (backend : Backend) (server : Server) :
    Except Failure (Store × Server) :=
  (attempt network settings backend server).outcome

end LinkGuard.Remote
