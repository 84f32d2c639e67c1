import LinkGuard.Counter.Plan
import LinkGuard.Keyed
import LinkGuard.Time.Step

/-! # Counters of this process

A table of counters that lives in the process. The hit that finds no window, or finds one that is
over, opens a fresh window in the same stroke. A key is never dropped.
-/

namespace LinkGuard

structure Entry where
  count : Nat
  expiry : Option Instant
deriving DecidableEq

namespace Entry

/-- What a key starts from. -/
def fresh : Entry := ⟨0, none⟩

def isStale (e : Entry) (now : Instant) : Bool :=
  match e.expiry with
  | none => false
  | some expiry => expiry ≤ now

def ttl (e : Entry) (now : Instant) : Ttl :=
  match e.expiry with
  | none => .unarmed
  | some expiry =>
    match (expiry.stepFrom now).span? with
    | none => .gone
    | some remaining => if remaining = .zero then .gone else .live remaining

/-- The entry that a hit at `now` counts up: itself, or an empty one with a fresh window. -/
def opened (e : Entry) (now freshExpiry : Instant) : Entry :=
  if e.expiry.isNone || e.isStale now then ⟨0, some freshExpiry⟩ else e

end Entry

/-- The end of a window that opens at `now`: refused if the window is no step, or leads out of the
    calendar. -/
def windowEnd (now : Instant) (window : Span) : Except StoreError Instant :=
  match (Step.ofSpan? window).bind now.after? with
  | some t => .ok t
  | none => .error (.windowOutOfRange window)

abbrev Table := Keyed Entry

namespace Table

def increment (now : Instant) (key : String) (window : Span) (table : Table) :
    Except StoreError Hit × Table :=
  match windowEnd now window with
  | .error e => (.error e, table)
  | .ok freshExpiry =>
    let old := ((table.get? key).getD .fresh).opened now freshExpiry
    let new : Entry := ⟨old.count + 1, old.expiry⟩
    (.ok ⟨new.count, new.ttl now⟩, table.set key new)

def arm (now : Instant) (key : String) (window : Span) (table : Table) :
    Except StoreError Unit × Table :=
  match windowEnd now window with
  | .error e => (.error e, table)
  | .ok expiry =>
    match table.get? key with
    | none => (.ok (), table)
    | some entry => (.ok (), table.set key ⟨entry.count, some expiry⟩)

def remaining (now : Instant) (key : String) (table : Table) : Ttl :=
  match table.get? key with
  | none => .gone
  | some entry => entry.ttl now

/-- The table as a store whose clock shows `now`. -/
def handle (now : Instant) : Handler Table
  | .increment key window, table => table.increment now key window
  | .arm key window, table => table.arm now key window
  | .remaining key, table => (.ok (table.remaining now key), table)

end Table

end LinkGuard
