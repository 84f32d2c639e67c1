import LinkGuard.Counter.Table
import LinkGuard.Proofs.Time

/-! # Windows

An entry that is armed stands for a window: the instant it ends and the hits that fell into it. A
window that has not ended takes the next hit in; otherwise the hit opens a window of its own,
whatever was left behind.
-/

namespace LinkGuard

/-- The end of a window, and how many hits fell into it. -/
@[ext] structure Window where
  deadline : Instant
  hits : Nat
deriving DecidableEq

namespace Window

/-- The window that a hit at `now` falls into: the one of its key while that runs, and else a new
    one. -/
def next (now freshDeadline : Instant) : Option Window → Window
  | none => ⟨freshDeadline, 1⟩
  | some w => if now < w.deadline then ⟨w.deadline, w.hits + 1⟩ else ⟨freshDeadline, 1⟩

def remaining (now : Instant) : Option Window → Span
  | none => .zero
  | some w => w.deadline.since now

def entry (w : Window) : Entry := ⟨w.hits, some w.deadline⟩

theorem running_or_closed (now : Instant) (w : Option Window) :
    (∃ v, w = some v ∧ now < v.deadline) ∨ ∀ v ∈ w, v.deadline ≤ now := by
  cases w with
  | none => exact .inr fun _ absent => by cases absent
  | some v =>
      by_cases running : now < v.deadline
      · exact .inl ⟨v, rfl, running⟩
      · refine .inr fun u same => ?_
        obtain rfl := Option.some.inj same
        exact Instant.not_lt.mp running

theorem next_of_running {w : Window} {now freshDeadline : Instant} (running : now < w.deadline) :
    next now freshDeadline (some w) = ⟨w.deadline, w.hits + 1⟩ :=
  if_pos running

theorem next_of_over {w : Option Window} {now freshDeadline : Instant}
    (closed : ∀ v ∈ w, v.deadline ≤ now) :
    next now freshDeadline w = ⟨freshDeadline, 1⟩ := by
  cases w with
  | none => rfl
  | some v => exact if_neg (Instant.not_lt.mpr (closed v rfl))

theorem lt_deadline_next {now freshDeadline : Instant} (future : now < freshDeadline)
    (w : Option Window) :
    now < (next now freshDeadline w).deadline := by
  cases w with
  | none => exact future
  | some v =>
      simp only [next]
      split
      · assumption
      · exact future

theorem one_le_hits_next (now freshDeadline : Instant) (w : Option Window) :
    1 ≤ (next now freshDeadline w).hits := by
  rcases running_or_closed now w with ⟨v, rfl, running⟩ | closed
  · rw [next_of_running running]
    exact Nat.succ_pos v.hits
  · exact Nat.le_of_eq (congrArg hits (next_of_over closed)).symm

end Window

namespace Entry

/-- The window an entry stands for, if it is armed. -/
def window? (e : Entry) : Option Window := e.expiry.map fun deadline => ⟨deadline, e.count⟩

theorem window?_eq_some_iff {e : Entry} {w : Window} : e.window? = some w ↔ e = w.entry := by
  obtain ⟨count, expiry⟩ := e
  cases expiry <;> simp [window?, Window.entry, Window.ext_iff, and_comm]

theorem eq_entry_of_armed {e : Entry} (armed : e.expiry.isSome) : ∃ w : Window, e = w.entry := by
  obtain ⟨count, expiry⟩ := e
  obtain ⟨deadline, rfl⟩ := Option.isSome_iff_exists.mp armed
  exact ⟨⟨deadline, count⟩, rfl⟩

theorem ttl_entry (w : Window) (now : Instant) :
    w.entry.ttl now = if now < w.deadline then .live (w.deadline.since now) else .gone := by
  simp only [Window.entry, ttl, Instant.span?_stepFrom]
  by_cases running : now < w.deadline
  · have ahead : now ≤ w.deadline := Int.le_of_lt running
    have some_left : ¬ w.deadline ≤ now := fun closed => Instant.not_lt.mpr closed running
    simp only [running, ahead, Instant.since_eq_zero_iff, some_left, if_true, if_false]
  · have closed := Instant.not_lt.mp running
    by_cases ahead : now ≤ w.deadline
    · simp only [running, ahead, Instant.since_eq_zero_iff, closed, if_true, if_false]
    · simp only [running, ahead, if_false]

def counted (e : Entry) (now freshExpiry : Instant) : Entry :=
  ⟨(e.opened now freshExpiry).count + 1, (e.opened now freshExpiry).expiry⟩

theorem counted_eq (e : Entry) (now freshExpiry : Instant) :
    e.counted now freshExpiry = (Window.next now freshExpiry e.window?).entry := by
  rcases e with ⟨count, expiry⟩
  cases expiry with
  | none => rfl
  | some deadline =>
      by_cases running : now < deadline
      · have kept : ¬ deadline ≤ now := fun closed => Instant.not_lt.mpr closed running
        simp [counted, opened, isStale, window?, Window.next, Window.entry, running, kept]
      · have closed : deadline ≤ now := Instant.not_lt.mp running
        simp [counted, opened, isStale, window?, Window.next, Window.entry, running, closed]

end Entry

theorem windowEnd_of_add? {now deadline : Instant} {window : Span}
    (ends : now.add? window = some deadline) : windowEnd now window = .ok deadline := by
  simp only [windowEnd, Instant.bind_after?, ends]

theorem windowEnd_of_no_end {now : Instant} {window : Span} (endless : now.add? window = none) :
    windowEnd now window = .error (.windowOutOfRange window) := by
  simp only [windowEnd, Instant.bind_after?, endless]

namespace Table

def window? (table : Table) (key : String) : Option Window := (table.get? key).bind Entry.window?

theorem window?_eq_some_iff {table : Table} {key : String} {w : Window} :
    table.window? key = some w ↔ table.get? key = some w.entry := by
  simp only [window?, Option.bind_eq_some_iff, Entry.window?_eq_some_iff, exists_eq_right]

@[simp] theorem window?_set (table : Table) (key : String) (w : Window) (other : String) :
    Table.window? (table.set key w.entry) other =
      if key = other then some w else table.window? other := by
  simp only [window?, Keyed.get?_set]
  split <;> rfl

/-- A hit moves its key to the next window, be that over at once or not. -/
theorem increment_of_add? {now : Instant} {window : Span} {deadline : Instant}
    (ends : now.add? window = some deadline) (key : String) (table : Table) :
    let w := Window.next now deadline (table.window? key)
    table.increment now key window = (.ok ⟨w.hits, w.entry.ttl now⟩, table.set key w.entry) := by
  intro w
  have same : ((table.get? key).getD .fresh).window? = table.window? key := by
    cases found : table.get? key <;> simp [window?, found, Entry.fresh, Entry.window?]
  have counted : ((table.get? key).getD .fresh).counted now deadline = w.entry := by
    rw [Entry.counted_eq, same]
  calc
    table.increment now key window =
        (.ok ⟨(((table.get? key).getD .fresh).counted now deadline).count,
          (((table.get? key).getD .fresh).counted now deadline).ttl now⟩,
          table.set key (((table.get? key).getD .fresh).counted now deadline)) := by
      simp only [increment, windowEnd_of_add? ends, Entry.counted]
    _ = (.ok ⟨w.hits, w.entry.ttl now⟩, table.set key w.entry) := by
      rw [counted, Window.entry]

theorem increment_of_end {now : Instant} {window : Span} {deadline : Instant}
    (ends : now.add? window = some deadline) (positive : .zero < window) (key : String)
    (table : Table) :
    let w := Window.next now deadline (table.window? key)
    table.increment now key window =
      (.ok ⟨w.hits, .live (w.deadline.since now)⟩, table.set key w.entry) := by
  intro w
  have runs : now < w.deadline := Window.lt_deadline_next (Instant.lt_of_add? ends positive) _
  rw [increment_of_add? ends, Entry.ttl_entry, if_pos runs]

theorem increment_of_no_end {now : Instant} {window : Span} (endless : now.add? window = none)
    (key : String) (table : Table) :
    table.increment now key window = (.error (.windowOutOfRange window), table) := by
  simp only [increment, windowEnd_of_no_end endless]

theorem arm_of_add? {now : Instant} {window : Span} {deadline : Instant}
    (ends : now.add? window = some deadline) (key : String) (table : Table) :
    (table.arm now key window).1 = .ok () ∧
      (table.arm now key window).2.get? key =
        (table.get? key).map fun e => ⟨e.count, some deadline⟩ := by
  simp only [arm, windowEnd_of_add? ends]
  cases found : table.get? key with
  | none => exact ⟨rfl, found⟩
  | some e => exact ⟨rfl, by rw [Keyed.get?_set, if_pos rfl, Option.map_some]⟩

theorem arm_of_no_end {now : Instant} {window : Span} (endless : now.add? window = none)
    (key : String) (table : Table) :
    table.arm now key window = (.error (.windowOutOfRange window), table) := by
  simp only [arm, windowEnd_of_no_end endless]

end Table

end LinkGuard
