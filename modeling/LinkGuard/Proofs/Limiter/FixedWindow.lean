import Mathlib.Data.List.Induction
import LinkGuard.Proofs.Limiter.Hit
import LinkGuard.Proofs.Run

/-! # Fixed windows, exactly

The hits of a key that were counted, told by their instants alone, decide every later answer about
that key and the entry the table keeps for it. The clock may jump in either direction between two
calls. The invariant of a run is `Table.Shows`: the table holds the windows that the counted hits
leave behind, and nothing else.
-/

namespace LinkGuard

/-- Whether a call came to a decision, so that its hit was counted. -/
def LimiterAnswer.isDecided : LimiterAnswer → Bool
  | decision (.ok _) => true
  | _ => false

/-- The instants of the hits of a key that were counted. -/
def countedHits (key : String) (calls : List (Instant × LimiterCall))
    (answers : List LimiterAnswer) : List Instant :=
  (calls.zip answers).filterMap fun ((now, call), answer) =>
    if call = .allow key ∧ answer.isDecided then some now else none

def Table.deadline? (table : Table) (key : String) : Option Instant :=
  (table.get? key).bind Entry.expiry

/-- The table keeps these windows under their keys. -/
def Table.Shows (table : Table) (windows : String → Option Window) : Prop :=
  ∀ key, table.get? key = (windows key).map Window.entry

namespace Policy

def serve (policy : Policy) : Machine (Instant × LimiterCall) Table LimiterAnswer :=
  fun (now, call) table => (policy.plan call).run (Table.handle now) table

/-- The one command that a call comes down to on a table. -/
def command (policy : Policy) : LimiterCall → Command
  | .allow key => .increment key policy.window
  | .cooldown key => .remaining key

/-- The window that hits at these instants leave behind. -/
def windowAfter (policy : Policy) (times : List Instant) : Option Window :=
  times.foldl (fun w now => (policy.hit now w).2) none

def expected (policy : Policy) (now : Instant) (w : Option Window) : LimiterCall → LimiterAnswer
  | .allow _ => .decision (policy.hit now w).1
  | .cooldown _ => .wait (.ok (Window.remaining now w))

end Policy

theorem countedHits_snoc (key : String) {calls : List (Instant × LimiterCall)}
    {answers : List LimiterAnswer} (aligned : calls.length = answers.length) (now : Instant)
    (call : LimiterCall) (answer : LimiterAnswer) :
    countedHits key (calls ++ [(now, call)]) (answers ++ [answer]) =
      countedHits key calls answers ++
        if call = .allow key ∧ answer.isDecided then [now] else [] := by
  simp only [countedHits, List.zip_append aligned, List.filterMap_append, List.zip_cons_cons,
    List.zip_nil_left]
  split
  case isTrue counted =>
    simp only [counted, and_self, if_true, List.filterMap_cons, List.filterMap_nil]
  case isFalse passed => simp only [passed, if_false, List.filterMap_cons, List.filterMap_nil]

namespace Table.Shows

variable {table : Table} {windows : String → Option Window}

theorem empty : Table.Shows .empty fun _ => none := fun _ => rfl

theorem window?_eq (shows : table.Shows windows) (key : String) :
    table.window? key = windows key := by
  simp only [Table.window?, shows key]
  cases windows key <;> rfl

theorem deadline?_eq (shows : table.Shows windows) (key : String) :
    table.deadline? key = (windows key).map Window.deadline := by
  simp only [Table.deadline?, shows key]
  cases windows key <;> rfl

theorem wait_eq (shows : table.Shows windows) (policy : Policy) (now : Instant) (key : String) :
    policy.wait (table.remaining now key) = Window.remaining now (windows key) := by
  simp only [Table.remaining, shows key]
  cases windows key with
  | none => rfl
  | some w => exact policy.wait_ttl w now

theorem after_allow (shows : table.Shows windows) (policy : Policy) (now : Instant) (key : String) :
    Table.Shows ((policy.allow key).run (Table.handle now) table).2 fun other =>
      if key = other then (policy.hit now (windows key)).2 else windows other := by
  intro other
  cases ends : now.add? policy.window with
  | none =>
      simp only [Policy.allow_run_of_no_end ends, Policy.hit_of_no_end ends, shows other]
      split
      case isTrue same => rw [same]
      case isFalse => rfl
  | some deadline =>
      simp only [Policy.allow_run_of_end ends, Policy.hit_of_end ends, Keyed.get?_set,
        shows.window?_eq]
      split
      case isTrue => rfl
      case isFalse => exact shows other

end Table.Shows

namespace Policy

variable {policy : Policy} {table : Table} {windows : String → Option Window}

theorem serve_answer (shows : table.Shows windows) (now : Instant) (call : LimiterCall) :
    (policy.serve (now, call) table).1 = policy.expected now (windows call.key) call := by
  cases call with
  | allow key =>
      simp only [serve, plan, Plan.run_map, allow_answer, shows.window?_eq, expected,
        LimiterCall.key]
  | cooldown key =>
      simp only [serve, plan, Plan.run_map, cooldown_run, shows.wait_eq, expected, LimiterCall.key]

theorem serve_shows (policy : Policy) (shows : table.Shows windows) (now : Instant)
    (call : LimiterCall) :
    Table.Shows (policy.serve (now, call) table).2 fun key =>
      if call = .allow key then (policy.hit now (windows key)).2 else windows key := by
  cases call with
  | allow key =>
      intro other
      simp only [serve, plan, Plan.run_map, shows.after_allow policy now key other,
        LimiterCall.allow.injEq]
      split
      case isTrue same => rw [same]
      case isFalse => rfl
  | cooldown key => exact shows

/-- A hit that fails moves nothing, so it need not be told apart from one that was never made. -/
theorem windowAfter_counted (policy : Policy) (times : List Instant) (now : Instant)
    (key : String) :
    policy.windowAfter (times ++
      if (policy.expected now (policy.windowAfter times) (.allow key)).isDecided
      then [now] else []) = (policy.hit now (policy.windowAfter times)).2 := by
  cases ends : now.add? policy.window with
  | none => simp [expected, hit_of_no_end ends, LimiterAnswer.isDecided]
  | some deadline =>
      simp only [expected, hit_of_end ends, LimiterAnswer.isDecided, if_true]
      simp only [windowAfter, List.foldl_append, List.foldl_cons, List.foldl_nil, hit_of_end ends]

/-- After any run from the empty table, the windows kept are those that the counted hits leave
    behind. -/
theorem reached_shows (policy : Policy) (calls : List (Instant × LimiterCall)) :
    Table.Shows (Machine.reached policy.serve calls .empty) fun key =>
      policy.windowAfter (countedHits key calls (Machine.answers policy.serve calls .empty)) := by
  induction calls using List.reverseRecOn with
  | nil => exact Table.Shows.empty
  | append_singleton earlier last ih =>
      obtain ⟨now, call⟩ := last
      have step := policy.serve_shows ih now call
      have aligned : earlier.length = (Machine.answers policy.serve earlier .empty).length :=
        (Machine.length_answers policy.serve earlier .empty).symm
      intro key
      rw [Machine.reached_append, Machine.answers_append]
      simp only [Machine.reached, Machine.answers, serve_answer ih]
      rw [step key, countedHits_snoc key aligned]
      cases call with
      | cooldown asked => simp
      | allow asked =>
          by_cases same : asked = key
          · subst same
            simp only [true_and, if_true]
            exact congrArg (Option.map Window.entry) (policy.windowAfter_counted _ now asked).symm
          · simp [same]

/-- A call opens a window for a key if it is a hit of that key at an instant at which no window of
    the key runs, and the end of a new one lies inside the calendar. -/
def Opens (policy : Policy) (now : Instant) (call : LimiterCall) (table : Table) (key : String) :
    Prop :=
  call = .allow key ∧ (∀ deadline ∈ table.deadline? key, deadline ≤ now) ∧
    (now.add? policy.window).isSome

theorem deadline?_of_opens (shows : table.Shows windows) {now : Instant} {call : LimiterCall}
    {key : String} (opens : policy.Opens now call table key) :
    Table.deadline? (policy.serve (now, call) table).2 key = now.add? policy.window := by
  obtain ⟨hit, closed, ends⟩ := opens
  obtain ⟨deadline, ends⟩ := Option.isSome_iff_exists.mp ends
  have gone : ∀ v ∈ windows key, v.deadline ≤ now := by
    intro v found
    apply closed
    rw [shows.deadline?_eq, Option.mem_def.mp found]
    rfl
  rw [(policy.serve_shows shows now call).deadline?_eq, if_pos hit, hit_of_end ends,
    Window.next_of_over gone, ends]
  rfl

theorem deadline?_of_not_opens (shows : table.Shows windows) {now : Instant} {call : LimiterCall}
    {key : String} (stays : ¬ policy.Opens now call table key) :
    Table.deadline? (policy.serve (now, call) table).2 key = table.deadline? key := by
  rw [(policy.serve_shows shows now call).deadline?_eq, shows.deadline?_eq]
  split
  case isFalse => rfl
  case isTrue hit =>
    cases ends : now.add? policy.window with
    | none => rw [hit_of_no_end ends]
    | some deadline =>
        rcases Window.running_or_closed now (windows key) with ⟨v, found, running⟩ | gone
        · rw [hit_of_end ends, found, Window.next_of_running running]
          rfl
        · refine absurd ⟨hit, ?_, by rw [ends]; rfl⟩ stays
          intro d found
          rw [shows.deadline?_eq, Option.mem_def, Option.map_eq_some_iff] at found
          obtain ⟨v, found, rfl⟩ := found
          exact gone v found

theorem plan_commands (policy : Policy) (now : Instant) (call : LimiterCall) (table : Table) :
    (policy.plan call).commands (Table.handle now) table = [policy.command call] := by
  cases call with
  | allow key => simp only [plan, Plan.commands_map, allow_commands, command]
  | cooldown key => simp only [plan, Plan.commands_map, cooldown_commands, command]

/-- Whatever was called before and wherever the clock went, a call is answered by the window that
    the counted hits of its key leave behind, and the table keeps that window. A deadline moves only
    where a window opens, to the end of the new one; a hit whose window would end past the calendar
    fails and changes nothing; and each call is one command, which never sets the end of a
    window. -/
theorem fixed_window_exact (policy : Policy) (calls : List (Instant × LimiterCall)) :
    let answers := Machine.answers policy.serve calls .empty
    let table := Machine.reached policy.serve calls .empty
    (∀ i : Nat, answers[i]? = calls[i]?.map fun (now, call) =>
      policy.expected now
        (policy.windowAfter (countedHits call.key (calls.take i) (answers.take i))) call) ∧
    (∀ key, table.get? key =
      (policy.windowAfter (countedHits key calls answers)).map Window.entry) ∧
    (∀ now call key,
      (policy.Opens now call table key →
        Table.deadline? (policy.serve (now, call) table).2 key = now.add? policy.window) ∧
      (¬ policy.Opens now call table key →
        Table.deadline? (policy.serve (now, call) table).2 key = table.deadline? key)) ∧
    (∀ now key, now.add? policy.window = none →
      policy.serve (now, .allow key) table =
        (.decision (.error (.windowOutOfRange policy.window)), table)) ∧
    ∀ now call, (policy.plan call).commands (Table.handle now) table = [policy.command call] := by
  intro answers table
  have shows := policy.reached_shows calls
  refine ⟨?_, shows, ?_, ?_, ?_⟩
  · intro i
    simp only [answers, Machine.answers_getElem?, ← Machine.answers_take]
    congr 1
    funext (now, call)
    exact serve_answer (policy.reached_shows (calls.take i)) now call
  · intro now call key
    exact ⟨deadline?_of_opens shows, deadline?_of_not_opens shows⟩
  · intro now key endless
    simp only [serve, plan, Plan.run_map, allow_run_of_no_end endless]
  · intro now call
    exact policy.plan_commands now call table

end Policy

end LinkGuard
