import LinkGuard.Counter.Remote
import LinkGuard.Counter.Script
import LinkGuard.Counter.Table
import LinkGuard.Gate

/-! # A site

A site is what a deployment consists of while it runs: its clock, its counter stores, and the remote
server that some of them may sit on. A store is known by its place in the list.
-/

namespace LinkGuard

inductive Store where
  | table (table : Table)
  | script (script : Script)
  /-- A store on the remote server, and whether its connection has fallen silent. -/
  | remote (store : Remote.Store) (silent : Bool)

structure Site where
  now : Instant
  stores : List Store
  server : Remote.Server

namespace Site

def start (now : Instant) : Site := ⟨now, [], .empty⟩

/-- The site with one more store, and the place of that store. -/
def add (site : Site) (store : Store) : Nat × Site :=
  (site.stores.length, { site with stores := site.stores ++ [store] })

def tell (store : Store) (now : Instant) (server : Remote.Server) (command : Command) :
    Except StoreError command.Answer × Store × Remote.Server :=
  match store with
  | .table table =>
    let (answer, table) := Table.handle now command table
    (answer, .table table, server)
  | .script script =>
    let (answer, script) := Script.handle command script
    (answer, .script script, server)
  | .remote remote silent =>
    let (answer, line) := remote.handle command ⟨server, silent⟩
    (answer, .remote remote line.silent, line.server)

/-- The store at a place, as a handler. -/
def handler (place : Nat) : Handler Site := fun command site =>
  match site.stores[place]? with
  | none => (.error (.unavailable "no such store"), site)
  | some store =>
    let (answer, store, server) := tell store site.now site.server command
    (answer, { site with stores := site.stores.set place store, server })

/-- Whether the store at a place has to be waited for. -/
def waits (site : Site) (place : Nat) : Bool :=
  match site.stores[place]? with
  | some (.remote _ _) => true
  | _ => false

/-- The order in which two plans on these stores give their commands: a store at hand answers at
once, a remote one lets the other plan go on. A plan of the limiter gives at most two commands. -/
def turns (site : Site) (left right : Nat) : List Turn :=
  if site.waits left && site.waits right then Turn.alternating 2
  else if site.waits left then [.first, .second, .second]
  else []

/-- The site after a span, with the server's lifetimes run down by whole milliseconds. `none` if the
calendar does not reach that far; the server's time has passed even so. -/
def advance (site : Site) (span : Span) : Option Instant × Site :=
  let site := { site with server := site.server.advance span.millis }
  match site.now.add? span with
  | some now => (some now, { site with now })
  | none => (none, site)

theorem stores_advance (site : Site) (span : Span) :
    (site.advance span).2.stores = site.stores := by
  simp only [advance]
  split <;> rfl

theorem server_advance (site : Site) (span : Span) :
    (site.advance span).2.server = site.server.advance span.millis := by
  simp only [advance]
  split <;> rfl

end Site

end LinkGuard
