import LinkGuard.Counter.Plan
import LinkGuard.Counter.Server

/-! # Counters on a remote server

A hit sends two requests at once, one that counts up and one that asks for the lifetime; a counter
that is new has no end until a later request sets it. A connection on which the server has once
fallen silent stays silent.
-/

namespace LinkGuard.Remote

structure Line where
  server : Server
  silent : Bool

/-- Sends a request, and waits for the reply as long as need be: `none` is no reply ever. -/
def Line.send (line : Line) (key : String) (request : Request) : Option Reply × Line :=
  if line.silent then (none, line)
  else
    let (reply, server) := line.server.receive key request
    (reply, ⟨server, reply.isNone⟩)

structure Store where
  /-- The first part of the name of every row. -/
  space : String
  /-- How long a request may take. -/
  deadline : Span
deriving DecidableEq

def rowName (space key : String) : String := space ++ ":" ++ key

namespace Store

/-- A reply that has to be a number. -/
def integer : Reply → Except StoreError Int
  | .integer n => .ok n
  | .null => .error (.refused "the reply is null")
  | .complaint text => .error (.refused text)

def increment (store : Store) (key : String) (line : Line) : Except StoreError Hit × Line :=
  let row := rowName store.space key
  let (count, line) := line.send row .increment
  let (lifetime, line) := line.send row .lifetime
  match count, lifetime with
  | some count, some lifetime =>
    match integer count, integer lifetime with
    | .ok count, .ok lifetime => (.ok ⟨count.toNat, .ofReply lifetime⟩, line)
    | .error e, _ => (.error e, line)
    | _, .error e => (.error e, line)
  | _, _ => (.error (.timeout store.deadline), line)

/-- Sets the lifetime in whole milliseconds. -/
def arm (store : Store) (key : String) (window : Span) (line : Line) :
    Except StoreError Unit × Line :=
  if window.millis ≤ 9223372036854775807 then
    let (reply, line) := line.send (rowName store.space key) (.expire window.millis)
    match reply.map integer with
    | some (.ok _) => (.ok (), line)
    | some (.error e) => (.error e, line)
    | none => (.error (.timeout store.deadline), line)
  else (.error (.windowOutOfRange window), line)

def remaining (store : Store) (key : String) (line : Line) : Except StoreError Ttl × Line :=
  let (reply, line) := line.send (rowName store.space key) .lifetime
  match reply.map integer with
  | some (.ok lifetime) => (.ok (.ofReply lifetime), line)
  | some (.error e) => (.error e, line)
  | none => (.error (.timeout store.deadline), line)

def handle (store : Store) : Handler Line
  | .increment key _, line => store.increment key line
  | .arm key window, line => store.arm key window line
  | .remaining key, line => store.remaining key line

end Store

end LinkGuard.Remote
