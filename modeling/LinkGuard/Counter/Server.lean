import LinkGuard.Keyed

/-! # The remote server

A server keeps a count and a lifetime under each key and carries out one request at a time. Its
lifetimes run down as time passes, and a row whose lifetime is over is gone at once. For a given key
and kind of request the next reply can be laid down in advance: the request is then not carried out.
-/

namespace LinkGuard.Remote

/-- A count and the milliseconds it still lives, -1 for ever. -/
structure Row where
  count : Int
  pttl : Int
deriving DecidableEq

/-- The row after so many milliseconds, if it is still there. -/
def Row.after? (millis : Nat) (row : Row) : Option Row :=
  if row.pttl < 0 then some row
  else if row.pttl ≤ millis then none
  else some ⟨row.count, row.pttl - millis⟩

inductive Request where
  /-- Count up. -/
  | increment
  /-- Report the lifetime. -/
  | lifetime
  /-- Set the lifetime. -/
  | expire (millis : Int)
deriving DecidableEq

def Request.verb : Request → String
  | increment => "INCR"
  | lifetime => "PTTL"
  | expire _ => "PEXPIRE"

inductive Reply where
  | integer (n : Int)
  | null
  | complaint (text : String)
deriving DecidableEq

/-- What is laid down for a request: a reply, or silence from then on. -/
inductive Fault where
  | reply (reply : Reply)
  | hang
deriving DecidableEq

structure Server where
  rows : Keyed Row
  /-- Key, verb and fault, the first laid down first. -/
  faults : List (String × String × Fault)
  /-- The requests received for each key, in order. -/
  seen : Keyed (List Request)
  /-- The distinct commands that open a connection, in order. -/
  session : List (List String)

namespace Server

def empty : Server := ⟨.empty, [], .empty, []⟩

def maxCount : Int := 9223372036854775807

/-- What a request does to the rows, and its reply. -/
def carryOut (rows : Keyed Row) (key : String) : Request → Reply × Keyed Row
  | .increment =>
    let row := (rows.get? key).getD ⟨0, -1⟩
    if row.count < maxCount then
      (.integer (row.count + 1), rows.set key ⟨row.count + 1, row.pttl⟩)
    else (.complaint "ERR increment or decrement would overflow", rows)
  | .lifetime =>
    match rows.get? key with
    | none => (.integer (-2), rows)
    | some row => (.integer row.pttl, rows)
  | .expire millis =>
    match rows.get? key with
    | none => (.integer 0, rows)
    | some row =>
      if millis ≤ 0 then (.integer 1, rows.erase key)
      else (.integer 1, rows.set key ⟨row.count, millis⟩)

def advance (millis : Nat) (server : Server) : Server :=
  { server with rows := server.rows.mapValues? (Row.after? millis) }

/-- Takes the first fault laid down for a key and a verb. -/
def takeFault (key verb : String) :
    List (String × String × Fault) → Option (Fault × List (String × String × Fault))
  | [] => none
  | (k, v, fault) :: rest =>
    if k = key ∧ v = verb then some (fault, rest)
    else (takeFault key verb rest).map fun (found, others) => (found, (k, v, fault) :: others)

def lay (server : Server) (key verb : String) (fault : Fault) : Server :=
  { server with faults := server.faults ++ [(key, verb, fault)] }

def note (server : Server) (key : String) (request : Request) : Server :=
  { server with seen := server.seen.set key ((server.seen.get? key).getD [] ++ [request]) }

/-- Receives a request: the reply, or `none` for silence. -/
def receive (server : Server) (key : String) (request : Request) : Option Reply × Server :=
  let server := server.note key request
  match takeFault key request.verb server.faults with
  | some (.reply reply, faults) => (some reply, { server with faults })
  | some (.hang, faults) => (none, { server with faults })
  | none =>
    let (reply, rows) := carryOut server.rows key request
    (some reply, { server with rows })

/-- Remembers a command that opens a connection. -/
def greet (server : Server) (words : List String) : Server :=
  if server.session.contains words then server
  else { server with session := server.session ++ [words] }

end Server

end LinkGuard.Remote
