import LinkGuard.Limiter.Window
import LinkGuard.Proofs.Counter.Plan
import LinkGuard.Proofs.Counter.Window

/-! # Hits on a table

On a table of this process a hit is a matter between one key and the clock: it moves the window of
the key and is decided by where it falls in that window. The second command of a limiter is never
needed, because a table never leaves a window open at its end.
-/

namespace LinkGuard

inductive LimiterCall where
  | allow (key : String)
  | cooldown (key : String)
deriving DecidableEq

inductive LimiterAnswer where
  | decision (answer : Except StoreError Decision)
  | wait (answer : Except StoreError Span)

def LimiterCall.key : LimiterCall → String
  | allow key => key
  | cooldown key => key

namespace Policy

def plan (policy : Policy) : LimiterCall → Plan LimiterAnswer
  | .allow key => (policy.allow key).map .decision
  | .cooldown key => (policy.cooldown key).map .wait

/-- The decision on the hit that fell last into a window. -/
def verdict (policy : Policy) (now : Instant) (w : Window) : Decision :=
  if w.hits ≤ policy.limit then .allow else .deny (w.deadline.since now)

section

variable {policy : Policy} {now : Instant} {v : Window}

theorem verdict_of_within (within : v.hits ≤ policy.limit) :
    policy.verdict now v = .allow :=
  if_pos within

theorem verdict_of_beyond (beyond : policy.limit < v.hits) :
    policy.verdict now v = .deny (v.deadline.since now) :=
  if_neg (Nat.not_le.mpr beyond)

theorem verdict_denies_iff : (policy.verdict now v).allowed = false ↔ policy.limit < v.hits := by
  rcases Nat.lt_or_ge policy.limit v.hits with beyond | within
  · rw [verdict_of_beyond beyond]
    exact ⟨fun _ => beyond, fun _ => rfl⟩
  · rw [verdict_of_within within]
    exact ⟨nofun, fun beyond => absurd within (Nat.not_le.mpr beyond)⟩

theorem verdict_of_allowed (allowed : (policy.verdict now v).allowed) :
    policy.verdict now v = .allow := by
  refine verdict_of_within (Nat.not_lt.mp fun beyond => ?_)
  rw [verdict_denies_iff.mpr beyond] at allowed
  cases allowed

theorem deadline_of_beyond (beyond : policy.limit < v.hits) (running : now < v.deadline) :
    v.deadline.nanos = now.nanos + (policy.verdict now v).retryAfter.nanos := by
  rw [Instant.lt_iff] at running
  rw [verdict_of_beyond beyond, Decision.deny, Instant.nanos_since]
  omega

end

/-- What a hit at `now` is answered and makes of the window of its key. -/
def hit (policy : Policy) (now : Instant) (w : Option Window) :
    Except StoreError Decision × Option Window :=
  match now.add? policy.window with
  | none => (.error (.windowOutOfRange policy.window), w)
  | some deadline =>
    (.ok (policy.verdict now (Window.next now deadline w)), some (Window.next now deadline w))

theorem hit_of_end {policy : Policy} {now deadline : Instant}
    (ends : now.add? policy.window = some deadline) (w : Option Window) :
    policy.hit now w =
      (.ok (policy.verdict now (Window.next now deadline w)),
        some (Window.next now deadline w)) := by
  simp only [hit, ends]

theorem hit_of_no_end {policy : Policy} {now : Instant} (endless : now.add? policy.window = none)
    (w : Option Window) : policy.hit now w = (.error (.windowOutOfRange policy.window), w) := by
  simp only [hit, endless]

theorem judge_of_within {policy : Policy} {hit : Hit} (within : hit.count ≤ policy.limit) :
    policy.judge hit = .settled .allow ∨ policy.judge hit = .armThenAllow := by
  simp only [judge, within, if_true]
  split
  case isTrue =>
    split
    case isTrue => exact .inr rfl
    case isFalse => exact .inl rfl
  case isFalse => exact .inl rfl

theorem judge_of_beyond {policy : Policy} {hit : Hit} (beyond : policy.limit < hit.count) :
    policy.judge hit = match hit.ttl with
      | .live remaining => .settled (.deny remaining)
      | .gone => .armThenAllow
      | .unarmed => .settled (.deny policy.window) := by
  have positive := policy.limit_pos
  have later : ¬ hit.count = 1 := by omega
  have full : ¬ hit.count ≤ policy.limit := Nat.not_le.mpr beyond
  rcases hit with ⟨count, ttl⟩
  simp only at later full
  cases ttl <;> simp only [judge, later, full, if_false]

/-- With a window that runs, the first hit is no special case: a limit is at least one. -/
theorem judge_live (policy : Policy) (count : Nat) (remaining : Span) :
    policy.judge ⟨count, .live remaining⟩ =
      .settled (if count ≤ policy.limit then .allow else .deny remaining) := by
  have positive := policy.limit_pos
  simp only [judge, reduceCtorEq, if_false]
  split
  case isTrue first => rw [if_pos (by omega)]
  case isFalse later => split <;> rfl

theorem allow_run_of_end {policy : Policy} {now deadline : Instant}
    (ends : now.add? policy.window = some deadline) (key : String) (table : Table) :
    let w := Window.next now deadline (table.window? key)
    (policy.allow key).run (Table.handle now) table =
      (.ok (policy.verdict now w), table.set key w.entry) := by
  intro w
  have counted := Table.increment_of_end ends policy.window_pos key table
  simp only [allow, Plan.run, Table.handle, counted, judge_live]
  rfl

theorem allow_run_of_no_end {policy : Policy} {now : Instant}
    (endless : now.add? policy.window = none) (key : String) (table : Table) :
    (policy.allow key).run (Table.handle now) table =
      (.error (.windowOutOfRange policy.window), table) := by
  simp only [allow, Plan.run, Table.handle, Table.increment_of_no_end endless]

theorem allow_answer (policy : Policy) (now : Instant) (key : String) (table : Table) :
    ((policy.allow key).run (Table.handle now) table).1 =
      (policy.hit now (table.window? key)).1 := by
  cases ends : now.add? policy.window with
  | none => rw [allow_run_of_no_end ends, hit_of_no_end ends]
  | some deadline => rw [allow_run_of_end ends, hit_of_end ends]

theorem window?_allow (policy : Policy) (now : Instant) (key : String) (table : Table)
    (other : String) :
    Table.window? ((policy.allow key).run (Table.handle now) table).2 other =
      if key = other then (policy.hit now (table.window? key)).2 else table.window? other := by
  cases ends : now.add? policy.window with
  | none =>
      rw [allow_run_of_no_end ends, hit_of_no_end ends]
      split
      case isTrue same => rw [same]
      case isFalse => rfl
  | some deadline => rw [allow_run_of_end ends, hit_of_end ends, Table.window?_set]

theorem allow_commands (policy : Policy) (now : Instant) (key : String) (table : Table) :
    (policy.allow key).commands (Table.handle now) table = [.increment key policy.window] := by
  cases ends : now.add? policy.window with
  | none => simp only [allow, Plan.commands, Table.handle, Table.increment_of_no_end ends]
  | some deadline =>
      simp only [allow, Plan.commands, Table.handle, Table.increment_of_end ends policy.window_pos,
        judge_live]

theorem wait_ttl (policy : Policy) (w : Window) (now : Instant) :
    policy.wait (w.entry.ttl now) = w.deadline.since now := by
  rw [Entry.ttl_entry]
  split
  case isTrue => rfl
  case isFalse closed => exact (Instant.since_eq_zero_iff.mpr (Instant.not_lt.mp closed)).symm

theorem cooldown_run (policy : Policy) (now : Instant) (key : String) (table : Table) :
    (policy.cooldown key).run (Table.handle now) table =
      (.ok (policy.wait (table.remaining now key)), table) := rfl

theorem cooldown_commands (policy : Policy) (now : Instant) (key : String) (table : Table) :
    (policy.cooldown key).commands (Table.handle now) table = [.remaining key] := rfl

end Policy

end LinkGuard
