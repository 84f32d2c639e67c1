import LinkGuard.Proofs.Limiter.FixedWindow
import LinkGuard.Proofs.Limiter.Mirror
import LinkGuard.Proofs.Site.Remotes
import LinkGuard.Proofs.Site.Tables

/-! # One limiter, two kinds of store

A limiter on a remote server and one on a table of this process, with its window cut down to whole
milliseconds, answer alike. The windows of the table are the common view of both: the table shows
them, and the rows of the server mirror those that run. What parts the two is only that a server
counts no further than a signed 64-bit number.
-/

namespace LinkGuard

/-- A site with a remote store and a site with a table, at the same time and with the same
    windows. -/
structure Beside (store : Remote.Store) (far near : Site) (windows : String → Option Window) :
    Prop where
  answered : far.HasRemote 0 store
  mirrors : store.Mirrors far.server.rows far.now windows
  shows : ∃ table, near.table? 0 = some table ∧ table.Shows windows
  clock : near.now = far.now

def elapsed : List (Nat × LimiterCall) → Nat
  | [] => 0
  | (millis, _) :: rest => millis + elapsed rest

namespace Policy

/-- The limiter on the store at a place, each call so many milliseconds after the one before. -/
def serveAt (policy : Policy) (place : Nat) : Machine (Nat × LimiterCall) Site LimiterAnswer :=
  fun (millis, call) site =>
    (policy.plan call).run (Site.handler place) (site.advance (.ofMillis millis)).2

/-- The window of the key of a hit has taken in more hits than a server counts. -/
def Outgrown (windows : String → Option Window) (call : LimiterCall) : Prop :=
  ∃ key w, call = .allow key ∧ windows key = some w ∧ Remote.Server.maxCount < w.hits

end Policy

variable {policy : Policy} {store : Remote.Store} {far near : Site}
  {windows : String → Option Window}

theorem Site.advance_of_add? {site : Site} {span : Span} {later : Instant}
    (passed : site.now.add? span = some later) :
    (site.advance span).2 =
      { site with now := later, server := site.server.advance span.millis } := by
  simp only [advance, passed]

namespace Beside

theorem elapse (beside : Beside store far near windows) {millis : Nat} {later : Instant}
    (passed : far.now.add? (.ofMillis millis) = some later) :
    Beside store (far.advance (.ofMillis millis)).2 (near.advance (.ofMillis millis)).2 windows ∧
      (far.advance (.ofMillis millis)).2.now = later := by
  have passed' : near.now.add? (.ofMillis millis) = some later := by rw [beside.clock, passed]
  have whole : (Span.ofMillis millis).millis = millis := by simp [Span.ofMillis, Span.millis]
  refine ⟨⟨beside.answered.advance _, ?_, ?_, ?_⟩, ?_⟩
  · rw [Site.rows_advance, Site.advance_of_add? passed, whole]
    exact beside.mirrors.elapse passed
  · rw [Site.advance_of_add? passed']
    exact beside.shows
  · rw [Site.advance_of_add? passed', Site.advance_of_add? passed]
  · rw [Site.advance_of_add? passed]

theorem after_run {α β : Type} (beside : Beside store far near windows) {table : Table}
    (found : near.table? 0 = some table) (plan : Plan α) (plan' : Plan β)
    {windows' : String → Option Window}
    (mirrors : store.Mirrors (plan.run store.onRows far.server.rows).2 far.now windows')
    (shows : Table.Shows (plan'.run (Table.handle far.now) table).2 windows') :
    Beside store (plan.run (Site.handler 0) far).2
      (plan'.run (Site.handler 0) near).2 windows' := by
  obtain ⟨_, rows, now, answered⟩ := Site.run_of_remote plan beside.answered
  rw [Site.run_of_table plan' found, beside.clock]
  refine ⟨answered, ?_, ⟨_, ?_, shows⟩, beside.clock.trans now.symm⟩
  · rw [rows, now]
    exact mirrors
  · rw [Site.table?_putTable found, if_pos rfl]

theorem near_answer {α : Type} (beside : Beside store far near windows) {table : Table}
    (found : near.table? 0 = some table) (plan : Plan α) :
    (plan.run (Site.handler 0) near).1 = (plan.run (Table.handle far.now) table).1 := by
  rw [Site.run_of_table _ found, beside.clock]

theorem cooldown (coarse : .ofMillis 1 ≤ policy.window) (beside : Beside store far near windows)
    (key : String) :
    let onServer := (policy.plan (.cooldown key)).run (Site.handler 0) far
    let onTable := ((policy.inMillis coarse).plan (.cooldown key)).run (Site.handler 0) near
    Beside store onServer.2 onTable.2 windows ∧ onServer.1 = onTable.1 := by
  intro onServer onTable
  obtain ⟨table, found, shows⟩ := beside.shows
  have answer := (Site.run_of_remote (policy.plan (.cooldown key)) beside.answered).1
  have answer' := beside.near_answer found ((policy.inMillis coarse).plan (.cooldown key))
  have onRows : (policy.plan (.cooldown key)).run store.onRows far.server.rows =
      (.wait (.ok (Window.remaining far.now (windows key))), far.server.rows) := by
    rw [Policy.plan, Plan.run_map, beside.mirrors.wait_eq]
  have inTable :
      ((policy.inMillis coarse).plan (.cooldown key)).run (Table.handle far.now) table =
        (.wait (.ok (Window.remaining far.now (windows key))), table) := by
    rw [Policy.plan, Plan.run_map, Policy.cooldown_run, shows.wait_eq]
  rw [onRows] at answer
  rw [inTable] at answer'
  refine ⟨beside.after_run found _ _ ?_ ?_, answer.trans answer'.symm⟩
  · rw [onRows]
    exact beside.mirrors
  · rw [inTable]
    exact shows

theorem allow (coarse : .ofMillis 1 ≤ policy.window) (beside : Beside store far near windows)
    {deadline : Instant} (ends : far.now.add? (policy.inMillis coarse).window = some deadline)
    (key : String) :
    let w := Window.next far.now deadline (windows key)
    let onServer := (policy.plan (.allow key)).run (Site.handler 0) far
    let onTable := ((policy.inMillis coarse).plan (.allow key)).run (Site.handler 0) near
    Beside store onServer.2 onTable.2
        (fun other => if key = other then some w else windows other) ∧
      (onServer.1 = onTable.1 ∨
        Remote.Server.maxCount < w.hits ∧ onServer.1 = .decision (.error Remote.overflow)) := by
  intro w onServer onTable
  obtain ⟨table, found, shows⟩ := beside.shows
  have answer := (Site.run_of_remote (policy.plan (.allow key)) beside.answered).1
  have answer' := beside.near_answer found ((policy.inMillis coarse).plan (.allow key))
  obtain ⟨decided, mirrors⟩ := Policy.allow_run_of_mirrors coarse beside.mirrors ends key
  have onRows : ((policy.plan (.allow key)).run store.onRows far.server.rows).1 =
      .decision (if w.hits ≤ Remote.Server.maxCount
        then .ok ((policy.inMillis coarse).verdict far.now w) else .error Remote.overflow) := by
    rw [Policy.plan, Plan.run_map, decided]
  have inTable :
      (((policy.inMillis coarse).plan (.allow key)).run (Table.handle far.now) table).1 =
        .decision (.ok ((policy.inMillis coarse).verdict far.now w)) := by
    rw [Policy.plan, Plan.run_map, Policy.allow_answer, shows.window?_eq, Policy.hit_of_end ends]
  have shows' := shows.after_allow (policy.inMillis coarse) far.now key
  simp only [Policy.hit_of_end ends] at shows'
  rw [onRows] at answer
  rw [inTable] at answer'
  refine ⟨beside.after_run found _ _ ?_ ?_, ?_⟩
  · rw [Policy.plan, Plan.run_map_snd]
    exact mirrors
  · rw [Policy.plan, Plan.run_map_snd]
    exact shows'
  by_cases room : w.hits ≤ Remote.Server.maxCount
  · rw [if_pos room] at answer
    exact .inl (answer.trans answer'.symm)
  · rw [if_neg room] at answer
    exact .inr ⟨Int.not_le.mp room, answer⟩

theorem call (coarse : .ofMillis 1 ≤ policy.window) (beside : Beside store far near windows)
    {deadline : Instant} (ends : far.now.add? (policy.inMillis coarse).window = some deadline)
    (call : LimiterCall) :
    let onServer := (policy.plan call).run (Site.handler 0) far
    let onTable := ((policy.inMillis coarse).plan call).run (Site.handler 0) near
    ∃ windows', Beside store onServer.2 onTable.2 windows' ∧
      (onServer.1 = onTable.1 ∨
        Policy.Outgrown windows' call ∧ onServer.1 = .decision (.error Remote.overflow)) := by
  cases call with
  | cooldown key =>
      obtain ⟨beside', same⟩ := beside.cooldown coarse key
      exact ⟨windows, beside', .inl same⟩
  | allow key =>
      obtain ⟨beside', answered⟩ := beside.allow coarse ends key
      refine ⟨_, beside', answered.imp_right fun ⟨beyond, failed⟩ => ⟨?_, failed⟩⟩
      exact ⟨key, _, rfl, if_pos rfl, beyond⟩

theorem window?_eq (beside : Beside store far near windows) : near.window? 0 = windows := by
  obtain ⟨table, found, shows⟩ := beside.shows
  funext key
  rw [Site.window?, found, Option.bind_some, shows.window?_eq]

/-- Call by call the answers agree, up to where a row cannot count on. -/
theorem run (coarse : .ofMillis 1 ≤ policy.window) {calls : List (Nat × LimiterCall)}
    (beside : Beside store far near windows)
    (inside : (far.now.add? (.ofMillis (elapsed calls + policy.window.millis))).isSome) (i : Nat) :
    let onServer := Machine.answers (policy.serveAt 0) calls far
    let onTable := Machine.answers ((policy.inMillis coarse).serveAt 0) calls near
    onServer[i]? = onTable[i]? ∨
      ∃ millis call, calls[i]? = some (millis, call) ∧
      onServer[i]? = some (.decision (.error Remote.overflow)) ∧
      Policy.Outgrown ((Machine.reached ((policy.inMillis coarse).serveAt 0)
        (calls.take (i + 1)) near).window? 0) call := by
  intro onServer onTable
  -- `Beside` is what each call keeps; the room left in the calendar shrinks by the time each call
  -- lets pass.
  induction calls generalizing far near windows i with
  | nil => exact .inl rfl
  | cons first rest ih =>
      obtain ⟨millis, call⟩ := first
      simp only [elapsed, Nat.add_assoc] at inside
      obtain ⟨later, passed⟩ : ∃ later, far.now.add? (.ofMillis millis) = some later :=
        Option.isSome_iff_exists.mp (Instant.add?_isSome_of_le (Span.ofMillis_le (by omega)) inside)
      obtain ⟨beside, clock⟩ := beside.elapse passed
      rw [← Instant.add?_ofMillis_isSome_iff passed] at inside
      obtain ⟨deadline, ends⟩ :
          ∃ deadline, later.add? (policy.inMillis coarse).window = some deadline :=
        Option.isSome_iff_exists.mp (Instant.add?_isSome_of_le (Span.ofMillis_le (by omega)) inside)
      rw [← clock] at ends
      obtain ⟨windows', beside', answer⟩ := beside.call coarse ends call
      cases i with
      | zero =>
          rcases answer with same | ⟨outgrown, refused⟩
          · exact .inl (congrArg some same)
          · refine .inr ⟨millis, call, rfl, congrArg some refused, ?_⟩
            rw [← beside'.window?_eq] at outgrown
            exact outgrown
      | succ i =>
          have clock' : Site.now
              ((policy.plan call).run (Site.handler 0) (far.advance (.ofMillis millis)).2).2 =
              later := (Site.run_of_remote _ beside.answered).2.2.1.trans clock
          rw [← clock'] at inside
          exact ih beside' inside i

end Beside

namespace Policy

theorem hits_hit_le {now : Instant} {w : Option Window} {n : Nat} (few : ∀ v ∈ w, v.hits ≤ n) :
    ∀ v ∈ (policy.hit now w).2, v.hits ≤ n + 1 := by
  intro v found
  cases ends : now.add? policy.window with
  | none =>
      rw [hit_of_no_end ends] at found
      exact Nat.le_succ_of_le (few v found)
  | some deadline =>
      rw [hit_of_end ends] at found
      obtain rfl := Option.some.inj found
      cases w with
      | none => exact Nat.succ_le_succ (Nat.zero_le n)
      | some u =>
          have := few u rfl
          simp only [Window.next]
          split <;> simp only <;> omega

theorem hits_serveAt_le (policy : Policy) {site : Site} (tables : site.HasTable 0) {n : Nat}
    (few : ∀ key, ∀ w ∈ site.window? 0 key, w.hits ≤ n) (input : Nat × LimiterCall) :
    (policy.serveAt 0 input site).2.HasTable 0 ∧
      ∀ key, ∀ w ∈ (policy.serveAt 0 input site).2.window? 0 key, w.hits ≤ n + 1 := by
  obtain ⟨millis, call⟩ := input
  have tables' := (Site.hasTable_advance (.ofMillis millis)).mpr tables
  simp only [← Site.window?_advance site (.ofMillis millis)] at few
  cases call with
  | cooldown asked =>
      simp only [serveAt, plan, Plan.run_map, cooldown_of_table tables']
      exact ⟨tables', fun key w found => Nat.le_succ_of_le (few key w found)⟩
  | allow hit =>
      simp only [serveAt, plan, Plan.run_map, window?_allow_of_table tables', true_and]
      refine ⟨(Site.hasTable_run tables' _).mpr tables', fun key w found => ?_⟩
      split at found
      case isTrue => exact hits_hit_le (few hit) w found
      case isFalse => exact Nat.le_succ_of_le (few key w found)

theorem hits_le_length (policy : Policy) {site : Site} (tables : site.HasTable 0) {n : Nat}
    (few : ∀ key, ∀ w ∈ site.window? 0 key, w.hits ≤ n) (calls : List (Nat × LimiterCall))
    (key : String) :
    ∀ w ∈ (Machine.reached (policy.serveAt 0) calls site).window? 0 key,
      w.hits ≤ n + calls.length := by
  induction calls generalizing site n with
  | nil => exact few key
  | cons first rest ih =>
      obtain ⟨tables', few'⟩ := policy.hits_serveAt_le tables few first
      rw [List.length_cons, Nat.add_comm rest.length 1, ← Nat.add_assoc]
      exact ih tables' few'

theorem armed_serveAt (coarse : .ofMillis 1 ≤ policy.window) {site : Site}
    (has : site.HasRemote 0 store) (armed : Remote.Armed policy.window.millis site.server.rows)
    (input : Nat × LimiterCall) :
    (policy.serveAt 0 input site).2.HasRemote 0 store ∧
      Remote.Armed policy.window.millis (policy.serveAt 0 input site).2.server.rows := by
  obtain ⟨millis, call⟩ := input
  obtain ⟨_, rows, _, still⟩ :=
    Site.run_of_remote (policy.plan call) (has.advance (.ofMillis millis))
  have armed' := armed.elapse (Span.ofMillis millis).millis
  rw [← Site.rows_advance] at armed'
  refine ⟨still, ?_⟩
  simp only [serveAt, rows]
  cases call with
  | allow key =>
      rw [plan, Plan.run_map]
      exact armed_allow coarse armed' key
  | cooldown key => exact armed'

/-- On an empty server without faults and on an empty table, as long as the end of a window lies
    inside the calendar, a limiter gives the same answers: to every call in which the row of the key
    has room to count, and so to fewer than `2 ^ 63` calls in any case. After every call, whatever
    the clock shows, the rows that are there end within the window. -/
theorem backends_agree (policy : Policy) (coarse : .ofMillis 1 ≤ policy.window)
    (store : Remote.Store) (start : Instant) (calls : List (Nat × LimiterCall)) :
    let far : Site := ⟨start, [.remote store false], .empty⟩
    let near : Site := ⟨start, [.table .empty], .empty⟩
    let onServer := Machine.answers (policy.serveAt 0) calls far
    let onTable := Machine.answers ((policy.inMillis coarse).serveAt 0) calls near
    ((start.add? (.ofMillis (elapsed calls + policy.window.millis))).isSome →
      (∀ i : Nat, onServer[i]? = onTable[i]? ∨
        ∃ millis call, calls[i]? = some (millis, call) ∧
        onServer[i]? = some (.decision (.error Remote.overflow)) ∧
        Outgrown ((Machine.reached ((policy.inMillis coarse).serveAt 0)
          (calls.take (i + 1)) near).window? 0) call) ∧
      (calls.length ≤ Remote.Server.maxCount → onServer = onTable)) ∧
    ∀ name row, (Machine.reached (policy.serveAt 0) calls far).server.rows.get? name = some row →
      1 ≤ row.pttl ∧ row.pttl ≤ policy.window.millis := by
  intro far near onServer onTable
  have has : far.HasRemote 0 store := ⟨rfl, rfl⟩
  have beside : Beside store far near fun _ => none :=
    ⟨has, .empty store start, ⟨.empty, rfl, Table.Shows.empty⟩, rfl⟩
  constructor
  · intro inside
    have agree := beside.run coarse inside
    refine ⟨agree, fun short => List.ext_getElem? fun i => ?_⟩
    rcases agree i with same | ⟨_, _, _, _, key, w, _, found, many⟩
    · exact same
    -- So many hits in one window would need as many calls.
    · have tables : near.HasTable 0 := rfl
      have fresh : ∀ key, ∀ w ∈ near.window? 0 key, w.hits ≤ 0 := fun _ _ none => by cases none
      have few :=
        (policy.inMillis coarse).hits_le_length tables fresh (calls.take (i + 1)) key w found
      rw [List.length_take] at few
      omega
  · have armed : Remote.Armed policy.window.millis far.server.rows := fun _ _ none => by cases none
    have kept := Machine.reached_keeps (policy.serveAt 0)
      (P := fun site => site.HasRemote 0 store ∧ Remote.Armed policy.window.millis site.server.rows)
      calls (fun input _ _ kept => armed_serveAt coarse kept.1 kept.2 input) ⟨has, armed⟩
    exact kept.2

/-- One hit in a window of a millisecond and a half: three hits, the last one when the first window
    is over. -/
theorem backends_agree_on_three_hits :
    let policy : Policy := ⟨1, ⟨1500000⟩, by decide, by decide, by decide⟩
    let calls := [(0, .allow "a"), (0, .allow "a"), (1, .allow "a")]
    ∃ coarse : .ofMillis 1 ≤ policy.window,
      Machine.answers (policy.serveAt 0) calls
          ⟨.epoch, [.remote ⟨"s", .ofMillis 500⟩ false], .empty⟩ =
        Machine.answers ((policy.inMillis coarse).serveAt 0) calls
          ⟨.epoch, [.table .empty], .empty⟩ ∧
      ∀ name row, (Machine.reached (policy.serveAt 0) calls
          ⟨.epoch, [.remote ⟨"s", .ofMillis 500⟩ false], .empty⟩).server.rows.get? name = some row →
        1 ≤ row.pttl ∧ row.pttl ≤ policy.window.millis := by
  intro policy calls
  have coarse : .ofMillis 1 ≤ policy.window := by decide
  obtain ⟨agree, armed⟩ := backends_agree policy coarse ⟨"s", .ofMillis 500⟩ .epoch calls
  exact ⟨coarse, (agree (by decide)).2 (by decide), armed⟩

end Policy

end LinkGuard
