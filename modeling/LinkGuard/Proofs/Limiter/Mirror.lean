import LinkGuard.Proofs.Counter.Rows
import LinkGuard.Proofs.Limiter.Hit

/-! # Windows on a remote server

A server keeps no window that is over, and counts the time of the others in whole milliseconds.
Where the clock moves by whole milliseconds only, its rows mirror the windows that run, before and
after every hit and every step of the clock.
-/

namespace LinkGuard

namespace Window

/-- The row of a window while it runs, with its hits as far as a server counts. -/
def row? (now : Instant) (w : Window) : Option Remote.Row :=
  if now < w.deadline then some ⟨min w.hits Remote.Server.maxCount, (w.deadline.since now).millis⟩
  else none

/-- The window ends at a whole number of milliseconds from now. -/
def Whole (now : Instant) (w : Window) : Prop := (w.deadline.nanos - now.nanos) % 1000000 = 0

variable {w : Window} {now later : Instant}

theorem row?_of_running (running : now < w.deadline) :
    w.row? now = some ⟨min w.hits Remote.Server.maxCount, (w.deadline.since now).millis⟩ :=
  if_pos running

theorem row?_of_over (closed : w.deadline ≤ now) : w.row? now = none :=
  if_neg (Instant.not_lt.mpr closed)

theorem Whole.millis (whole : w.Whole now) (running : now < w.deadline) :
    ((w.deadline.since now).millis * 1000000 : Int) = w.deadline.nanos - now.nanos := by
  simp only [Whole] at whole
  simp only [Instant.lt_iff] at running
  simp only [Span.millis, Instant.nanos_since]
  omega

theorem Whole.reply (whole : w.Whole now) (running : now < w.deadline) :
    Ttl.ofReply (w.deadline.since now).millis = .live (w.deadline.since now) := by
  have length := whole.millis running
  simp only [Instant.lt_iff] at running
  have exact_ : Span.ofMillis (w.deadline.since now).millis = w.deadline.since now := by
    ext
    simp only [Span.nanos_ofMillis, Instant.nanos_since]
    omega
  rw [Ttl.ofReply, if_neg (by omega), if_pos (by omega), Int.toNat_natCast, exact_]

theorem Whole.elapse {millis : Nat} (whole : w.Whole now)
    (passed : now.add? (.ofMillis millis) = some later) :
    w.Whole later := by
  have sum := Instant.add?_eq_some_iff.mp passed
  simp only [Whole, Span.nanos_ofMillis] at whole sum ⊢
  omega

/-- A row runs down exactly as its window does. -/
theorem row?_later {millis : Nat} (whole : w.Whole now)
    (passed : now.add? (.ofMillis millis) = some later) :
    (w.row? now).bind (Remote.Row.after? millis) = w.row? later := by
  have sum := Instant.add?_eq_some_iff.mp passed
  simp only [Span.nanos_ofMillis] at sum
  by_cases running : now < w.deadline
  · have length := whole.millis running
    rw [row?_of_running running, Option.bind_some]
    by_cases runs : later < w.deadline
    · have length' := (whole.elapse passed).millis runs
      have alive : (millis : Int) < (w.deadline.since now).millis := by
        simp only [Instant.lt_iff] at runs
        omega
      rw [Remote.Row.after?_of_alive alive, row?_of_running runs]
      simp only [Option.some.injEq, Remote.Row.mk.injEq, true_and]
      omega
    · have closed := Instant.not_lt.mp runs
      have gone : ((w.deadline.since now).millis : Int) ≤ millis := by
        simp only [Instant.le_iff] at closed
        omega
      rw [Remote.Row.after?_of_over (Int.natCast_nonneg _) gone, row?_of_over closed]
  · have closed := Instant.not_lt.mp running
    simp only [Instant.le_iff] at closed
    have closed' : w.deadline ≤ later := by
      simp only [Instant.le_iff]
      omega
    rw [row?_of_over closed, row?_of_over closed', Option.bind_none]

end Window

/-- The rows of a store are the rows of the windows that run. -/
structure Remote.Store.Mirrors (store : Remote.Store) (rows : Keyed Remote.Row) (now : Instant)
    (windows : String → Option Window) : Prop where
  row (key : String) : rows.get? (rowName store.space key) = (windows key).bind (Window.row? now)
  whole (key : String) (w : Window) : windows key = some w → w.Whole now

namespace Remote.Store.Mirrors

variable {store : Remote.Store} {rows : Keyed Remote.Row} {now : Instant}
  {windows : String → Option Window}

theorem empty (store : Remote.Store) (now : Instant) : store.Mirrors .empty now fun _ => none :=
  ⟨fun _ => rfl, fun _ _ none => by cases none⟩

theorem elapse {millis : Nat} {later : Instant} (mirrors : store.Mirrors rows now windows)
    (passed : now.add? (.ofMillis millis) = some later) :
    store.Mirrors (rows.mapValues? (Row.after? millis)) later windows := by
  constructor
  · intro key
    rw [Keyed.get?_mapValues?, mirrors.row]
    cases found : windows key with
    | none => rfl
    | some w => exact Window.row?_later (mirrors.whole key w found) passed
  · intro key w found
    exact (mirrors.whole key w found).elapse passed

theorem update (mirrors : store.Mirrors rows now windows) {rows' : Keyed Row}
    {key : String} {w : Window} (here : rows'.get? (rowName store.space key) = w.row? now)
    (whole : w.Whole now)
    (elsewhere : ∀ name, rowName store.space key ≠ name → rows'.get? name = rows.get? name) :
    store.Mirrors rows' now fun other => if key = other then some w else windows other := by
  constructor
  · intro other
    by_cases same : key = other
    · subst same
      rw [if_pos rfl, here, Option.bind_some]
    · have apart : rowName store.space key ≠ rowName store.space other :=
        fun h => same (rowName_eq_iff.mp h)
      rw [if_neg same, elsewhere _ apart, mirrors.row]
  · intro other v found
    split at found
    case isTrue =>
      obtain rfl := Option.some.inj found
      exact whole
    case isFalse => exact mirrors.whole other v found

theorem wait_eq (mirrors : store.Mirrors rows now windows) (policy : Policy) (key : String) :
    (policy.cooldown key).run store.onRows rows =
      (.ok (Window.remaining now (windows key)), rows) := by
  simp only [Policy.cooldown, Plan.run, onRows, mirrors.row]
  cases found : windows key with
  | none => rfl
  | some w =>
      by_cases running : now < w.deadline
      · have reply := (mirrors.whole key w found).reply running
        simp only [Option.bind_some, Window.row?_of_running running, Option.map_some,
          Option.getD_some, reply]
        rfl
      · have closed := Instant.not_lt.mp running
        have nothing : w.deadline.since now = .zero := Instant.since_eq_zero_iff.mpr closed
        simp only [Option.bind_some, Window.row?_of_over closed, Option.map_none, Option.getD_none]
        exact congrArg (fun d => (Except.ok d, rows)) nothing.symm

end Remote.Store.Mirrors

/-- Every row has a lifetime, of so many milliseconds at most. -/
def Remote.Armed (millis : Nat) (rows : Keyed Remote.Row) : Prop :=
  ∀ name row, rows.get? name = some row → 1 ≤ row.pttl ∧ row.pttl ≤ millis

theorem Remote.Armed.elapse {millis : Nat} {rows : Keyed Remote.Row}
    (armed : Remote.Armed millis rows) (passed : Nat) :
    Remote.Armed millis (rows.mapValues? (Remote.Row.after? passed)) := by
  intro name row here
  rw [Keyed.get?_mapValues?, Option.bind_eq_some_iff] at here
  obtain ⟨old, found, kept⟩ := here
  obtain ⟨lives, short⟩ := armed name old found
  by_cases alive : passed < old.pttl
  · rw [Remote.Row.after?_of_alive alive] at kept
    obtain rfl := Option.some.inj kept
    simp only
    omega
  · rw [Remote.Row.after?_of_over (by omega) (Int.not_lt.mp alive)] at kept
    cases kept

namespace Policy

variable {policy : Policy} {store : Remote.Store} {rows : Keyed Remote.Row} {now : Instant}
  {windows : String → Option Window}

/-- The policy with its window cut down to whole milliseconds. -/
def inMillis (policy : Policy) (coarse : .ofMillis 1 ≤ policy.window) : Policy where
  limit := policy.limit
  window := .ofMillis policy.window.millis
  limit_pos := policy.limit_pos
  window_pos := by
    simp only [Span.le_iff, Span.lt_iff, Span.nanos_ofMillis, Span.nanos_zero,
      Span.millis] at coarse ⊢
    omega
  window_le := Nat.le_trans policy.window.millis_bounds.1 policy.window_le

theorem millis_le (policy : Policy) : policy.window.millis ≤ 9223372036854775807 := by
  have short := policy.window_le
  simp only [Span.le_iff, longestWindow, Span.ofSeconds, Span.millis] at short ⊢
  omega

theorem millis_bounds (coarse : .ofMillis 1 ≤ policy.window) :
    1 ≤ policy.window.millis ∧ policy.window.millis ≤ 9223372036854775807 := by
  refine ⟨?_, policy.millis_le⟩
  simp only [Span.le_iff, Span.nanos_ofMillis, Span.millis] at coarse ⊢
  omega

theorem allow_run_of_no_row (coarse : .ofMillis 1 ≤ policy.window) {key : String}
    (none : rows.get? (Remote.rowName store.space key) = none) :
    (policy.allow key).run store.onRows rows =
      (.ok .allow, (rows.set (Remote.rowName store.space key) ⟨1, -1⟩).set
        (Remote.rowName store.space key) ⟨1, policy.window.millis⟩) := by
  obtain ⟨positive, short⟩ := millis_bounds coarse
  have made : (rows.set (Remote.rowName store.space key) ⟨1, -1⟩).get?
      (Remote.rowName store.space key) = some ⟨1, -1⟩ := by
    rw [Keyed.get?_set, if_pos rfl]
  have unarmed : policy.judge ⟨1, .unarmed⟩ = .armThenAllow := rfl
  simp only [allow, Plan.run, Remote.Store.increment_of_no_row none, unarmed,
    Remote.Store.arm_of_row made positive short]

theorem allow_run_of_row {key : String} {row : Remote.Row} {d : Span}
    (found : rows.get? (Remote.rowName store.space key) = some row)
    (lives : Ttl.ofReply row.pttl = .live d) (room : row.count < Remote.Server.maxCount) :
    (policy.allow key).run store.onRows rows =
      (.ok (if (row.count + 1).toNat ≤ policy.limit then .allow else .deny d),
        rows.set (Remote.rowName store.space key) ⟨row.count + 1, row.pttl⟩) := by
  simp only [allow, Plan.run, Remote.Store.increment_of_row found room, lives, judge_live]

theorem allow_run_of_full_row {key : String} {row : Remote.Row}
    (found : rows.get? (Remote.rowName store.space key) = some row)
    (full : Remote.Server.maxCount ≤ row.count) :
    (policy.allow key).run store.onRows rows = (.error Remote.overflow, rows) := by
  simp only [allow, Plan.run, Remote.Store.increment_of_full_row found full]

theorem armed_allow (coarse : .ofMillis 1 ≤ policy.window)
    (armed : Remote.Armed policy.window.millis rows) (key : String) :
    Remote.Armed policy.window.millis ((policy.allow key).run store.onRows rows).2 := by
  obtain ⟨positive, _⟩ := millis_bounds coarse
  cases found : rows.get? (Remote.rowName store.space key) with
  | none =>
      rw [allow_run_of_no_row coarse found]
      intro name row here
      rw [Keyed.get?_set] at here
      split at here
      case isTrue =>
        obtain rfl := Option.some.inj here
        exact ⟨Int.ofNat_le.mpr positive, Int.le_refl _⟩
      case isFalse apart =>
        rw [Keyed.get?_set, if_neg apart] at here
        exact armed name row here
  | some old =>
      obtain ⟨lives, short⟩ := armed _ old found
      have reply : Ttl.ofReply old.pttl = .live (.ofMillis old.pttl.toNat) := by
        rw [Ttl.ofReply, if_neg (by omega), if_pos (by omega)]
      by_cases room : old.count < Remote.Server.maxCount
      · rw [allow_run_of_row found reply room]
        intro name row here
        rw [Keyed.get?_set] at here
        split at here
        case isTrue =>
          obtain rfl := Option.some.inj here
          exact ⟨lives, short⟩
        case isFalse => exact armed name row here
      · rw [allow_run_of_full_row found (Int.not_lt.mp room)]
        exact armed

theorem allow_run_of_running (policy : Policy) (mirrors : store.Mirrors rows now windows)
    {key : String} {v : Window} (found : windows key = some v) (running : now < v.deadline) :
    ((policy.allow key).run store.onRows rows).1 =
      (if v.hits + 1 ≤ Remote.Server.maxCount then .ok (policy.verdict now ⟨v.deadline, v.hits + 1⟩)
        else .error Remote.overflow) ∧
    store.Mirrors ((policy.allow key).run store.onRows rows).2 now
      fun other => if key = other then some ⟨v.deadline, v.hits + 1⟩ else windows other := by
  have whole := mirrors.whole key v found
  have row := mirrors.row key
  rw [found, Option.bind_some, Window.row?_of_running running] at row
  have row' : Window.row? now ⟨v.deadline, v.hits + 1⟩ =
      some ⟨min (v.hits + 1) Remote.Server.maxCount, (v.deadline.since now).millis⟩ :=
    Window.row?_of_running running
  by_cases room : (v.hits : Int) < Remote.Server.maxCount
  · have counted : min (v.hits : Int) Remote.Server.maxCount = v.hits := by omega
    have counted' : min (v.hits + 1 : Int) Remote.Server.maxCount = v.hits + 1 := by omega
    rw [counted] at row
    rw [counted'] at row'
    have fits : (v.hits + 1 : Int) ≤ Remote.Server.maxCount := by omega
    have hits : (v.hits + 1 : Int).toNat = v.hits + 1 := by omega
    simp only [allow_run_of_row row (whole.reply running) room, if_pos fits, hits]
    refine ⟨rfl, mirrors.update ?_ whole fun name apart => ?_⟩
    · rw [Keyed.get?_set, if_pos rfl, row']
    · rw [Keyed.get?_set, if_neg apart]
  · -- The row stays as it is, which is also where the row of one hit more would stop.
    have counted : min (v.hits : Int) Remote.Server.maxCount = Remote.Server.maxCount := by omega
    have counted' : min (v.hits + 1 : Int) Remote.Server.maxCount = Remote.Server.maxCount := by
      omega
    rw [counted] at row
    rw [counted'] at row'
    have past : ¬ (v.hits + 1 : Int) ≤ Remote.Server.maxCount := by omega
    rw [allow_run_of_full_row row (Int.le_refl _), if_neg past]
    exact ⟨rfl, mirrors.update (row.trans row'.symm) whole fun name _ => rfl⟩

theorem allow_run_of_over (coarse : .ofMillis 1 ≤ policy.window)
    (mirrors : store.Mirrors rows now windows) {deadline : Instant}
    (ends : now.add? (policy.inMillis coarse).window = some deadline)
    {key : String} (closed : ∀ v ∈ windows key, v.deadline ≤ now) :
    ((policy.allow key).run store.onRows rows).1 = .ok .allow ∧
    store.Mirrors ((policy.allow key).run store.onRows rows).2 now
      fun other => if key = other then some ⟨deadline, 1⟩ else windows other := by
  -- The server has dropped what the table still keeps, so both start from nothing.
  have gone : rows.get? (Remote.rowName store.space key) = none := by
    rw [mirrors.row]
    cases found : windows key with
    | none => rfl
    | some v => exact Window.row?_of_over (closed v found)
  have sum := Instant.add?_eq_some_iff.mp ends
  have future := Instant.lt_of_add? ends (policy.inMillis coarse).window_pos
  have length : (deadline.since now).millis = policy.window.millis := by
    simp only [inMillis, Span.nanos_ofMillis] at sum
    simp only [Span.millis, Instant.nanos_since] at sum ⊢
    omega
  have row : Window.row? now ⟨deadline, 1⟩ = some ⟨1, policy.window.millis⟩ := by
    rw [Window.row?_of_running future, length]
    rfl
  rw [allow_run_of_no_row coarse gone]
  refine ⟨rfl, mirrors.update ?_ ?_ fun name apart => ?_⟩
  · rw [Keyed.get?_set, if_pos rfl, row]
  · simp only [Window.Whole, sum, inMillis, Span.nanos_ofMillis]
    omega
  · rw [Keyed.get?_set, if_neg apart, Keyed.get?_set, if_neg apart]

/-- A hit is decided on a server as it is on a table, and the rows go on mirroring the windows. -/
theorem allow_run_of_mirrors (coarse : .ofMillis 1 ≤ policy.window)
    (mirrors : store.Mirrors rows now windows) {deadline : Instant}
    (ends : now.add? (policy.inMillis coarse).window = some deadline)
    (key : String) :
    let w := Window.next now deadline (windows key)
    ((policy.allow key).run store.onRows rows).1 =
      (if w.hits ≤ Remote.Server.maxCount then .ok ((policy.inMillis coarse).verdict now w)
        else .error Remote.overflow) ∧
    store.Mirrors ((policy.allow key).run store.onRows rows).2 now
      fun other => if key = other then some w else windows other := by
  intro w
  rcases Window.running_or_closed now (windows key) with ⟨v, found, running⟩ | closed
  · have joined : w = ⟨v.deadline, v.hits + 1⟩ := by
      simp only [w, found, Window.next_of_running running]
    rw [joined]
    exact policy.allow_run_of_running mirrors found running
  · have opened : w = ⟨deadline, 1⟩ := Window.next_of_over closed
    have first : (policy.inMillis coarse).verdict now ⟨deadline, 1⟩ = .allow :=
      if_pos policy.limit_pos
    rw [opened, first]
    exact allow_run_of_over coarse mirrors ends closed

end Policy

end LinkGuard
