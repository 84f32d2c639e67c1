import LinkGuard.Proofs.Limiter.FixedWindow
import LinkGuard.Proofs.Limiter.Mirror
import LinkGuard.Proofs.Limiter.Stuck

/-! # Hits while the clock stands

A server takes lifetimes in whole milliseconds. A window of a millisecond or more is cut down to
them, and its limit holds. What a shorter window is cut down to is nothing: setting that lifetime
takes the new row away, every hit is the first one, and no limit is ever reached. On a table the
same policies limit with every window.
-/

namespace LinkGuard

namespace LimiterAnswer

/-- A hit was let through. -/
def admits : LimiterAnswer → Bool
  | decision (.ok decided) => decided.allowed
  | _ => false

/-- A hit was turned away, which is not the same as an error. -/
def denies : LimiterAnswer → Bool
  | decision (.ok decided) => !decided.allowed
  | _ => false

/-- As many hits as the limit says are let through, and all others are turned away. -/
def Limited (limit : Nat) (answers : List LimiterAnswer) : Prop :=
  answers.countP admits = min answers.length limit ∧ answers.countP denies = answers.length - limit

theorem limited_of_each {limit n : Nat} {answer : Nat → LimiterAnswer}
    (admitted : ∀ i, i < n → (answer i).admits = decide (i < limit))
    (denied : ∀ i, i < n → (answer i).denies = !decide (i < limit)) :
    Limited limit ((List.range n).map answer) := by
  rw [Limited, List.countP_map, List.countP_map, List.length_map, List.length_range]
  induction n with
  | zero => simp
  | succ n ih =>
      obtain ⟨through, away⟩ := ih (fun i before => admitted i (Nat.lt_succ_of_lt before))
        (fun i before => denied i (Nat.lt_succ_of_lt before))
      rw [List.range_succ, List.countP_append, List.countP_append, through, away,
        List.countP_singleton, List.countP_singleton, Function.comp, Function.comp,
        admitted n (Nat.lt_succ_self n),
        denied n (Nat.lt_succ_self n)]
      by_cases within : n < limit
      · rw [decide_eq_true within, if_pos rfl, Bool.not_true, if_neg Bool.false_ne_true]
        omega
      · rw [decide_eq_false within, if_neg Bool.false_ne_true, Bool.not_false, if_pos rfl]
        omega

end LimiterAnswer

/-- The store at a place is answered, and this is its row for a key. -/
structure Site.HasRow (site : Site) (place : Nat) (store : Remote.Store) (key : String)
    (row? : Option Remote.Row) : Prop where
  answered : site.HasRemote place store
  row : site.server.rows.get? (Remote.rowName store.space key) = row?

namespace Policy

/-- The answer to a hit after so many others, where the server takes the window as its lifetime. -/
def answerAfter (policy : Policy) (count : Nat) : LimiterAnswer :=
  .decision (if (count : Int) < Remote.Server.maxCount then
    .ok (if count < policy.limit then .allow else .deny (.ofMillis policy.window.millis))
  else .error Remote.overflow)

/-- The row that so many hits leave behind. -/
def rowAfter? (policy : Policy) (count : Nat) : Option Remote.Row :=
  if count = 0 then none else some ⟨min count Remote.Server.maxCount, policy.window.millis⟩

variable {policy : Policy} {store : Remote.Store} {rows : Keyed Remote.Row} {key : String}

theorem rowAfter?_of_pos {count : Nat} (counts : 1 ≤ count) :
    policy.rowAfter? count = some ⟨min count Remote.Server.maxCount, policy.window.millis⟩ :=
  if_neg (Nat.ne_of_gt counts)

theorem answerAfter_of_room {count : Nat} (room : (count : Int) < Remote.Server.maxCount) :
    policy.answerAfter count =
      .decision (.ok (if count < policy.limit then .allow
        else .deny (.ofMillis policy.window.millis))) := by
  rw [answerAfter, if_pos room]

theorem answerAfter_of_full {count : Nat} (full : Remote.Server.maxCount ≤ count) :
    policy.answerAfter count = .decision (.error Remote.overflow) := by
  rw [answerAfter, if_neg (Int.not_lt.mpr full)]

theorem reply_millis (coarse : .ofMillis 1 ≤ policy.window) :
    Ttl.ofReply policy.window.millis = .live (.ofMillis policy.window.millis) := by
  obtain ⟨positive, _⟩ := millis_bounds coarse
  rw [Ttl.ofReply, if_neg (by omega), if_pos (by omega), Int.toNat_natCast]

theorem allow_run_of_rowAfter (coarse : .ofMillis 1 ≤ policy.window) {count : Nat}
    (found : rows.get? (Remote.rowName store.space key) = policy.rowAfter? count) :
    LimiterAnswer.decision ((policy.allow key).run store.onRows rows).1 = policy.answerAfter count ∧
      ((policy.allow key).run store.onRows rows).2.get? (Remote.rowName store.space key) =
        policy.rowAfter? (count + 1) := by
  rw [rowAfter?_of_pos (Nat.succ_pos count)]
  rcases Nat.eq_zero_or_pos count with rfl | counts
  · rw [allow_run_of_no_row coarse found, answerAfter_of_room (by decide), if_pos policy.limit_pos,
      Keyed.get?_set, if_pos rfl]
    exact ⟨rfl, rfl⟩
  · rw [rowAfter?_of_pos counts] at found
    by_cases room : (count : Int) < Remote.Server.maxCount
    · have counted : min (count : Int) Remote.Server.maxCount = count := by omega
      have counted' : min ((count + 1 : Nat) : Int) Remote.Server.maxCount = count + 1 := by omega
      have hits : (count + 1 : Int).toNat = count + 1 := by omega
      rw [counted] at found
      rw [allow_run_of_row found (reply_millis coarse) room, answerAfter_of_room room, counted',
        hits, Keyed.get?_set, if_pos rfl]
      exact ⟨rfl, rfl⟩
    · have full := Int.not_lt.mp room
      have counted : min (count : Int) Remote.Server.maxCount = Remote.Server.maxCount := by omega
      have counted' : min ((count + 1 : Nat) : Int) Remote.Server.maxCount =
          Remote.Server.maxCount := by omega
      rw [counted] at found
      rw [allow_run_of_full_row found (Int.le_refl _), answerAfter_of_full full, counted']
      exact ⟨rfl, found⟩

/-- A hit makes a row, and the lifetime of nothing that it sets takes the row away again. -/
theorem allow_run_of_brief (brief : policy.window < .ofMillis 1)
    (none : rows.get? (Remote.rowName store.space key) = none) :
    ((policy.allow key).run store.onRows rows).1 = .ok .allow ∧
      ((policy.allow key).run store.onRows rows).2.get? (Remote.rowName store.space key) =
        .none := by
  have made : (rows.set (Remote.rowName store.space key) ⟨1, -1⟩).get?
      (Remote.rowName store.space key) = some ⟨1, -1⟩ := by
    rw [Keyed.get?_set, if_pos rfl]
  have unarmed : policy.judge ⟨1, .unarmed⟩ = .armThenAllow := rfl
  have nothing : policy.window.millis = 0 := by
    simp only [Span.lt_iff, Span.nanos_ofMillis, Span.millis] at brief ⊢
    omega
  simp only [allow, Plan.run, Remote.Store.increment_of_no_row none, unarmed,
    Remote.Store.arm_of_row_for_nothing made nothing]
  exact ⟨trivial, by rw [Keyed.get?_erase, if_pos rfl]⟩

end Policy

namespace Site.HasRow

variable {site : Site} {place : Nat} {store : Remote.Store} {key : String}
  {row? : Option Remote.Row}

theorem allow (has : site.HasRow place store key row?) (policy : Policy) :
    (policy.callAt place (.allow key) site).1 =
        .decision ((policy.allow key).run store.onRows site.server.rows).1 ∧
      (policy.callAt place (.allow key) site).2.HasRow place store key
        (((policy.allow key).run store.onRows site.server.rows).2.get?
          (Remote.rowName store.space key)) := by
  obtain ⟨answer, rows, _, answered⟩ := Site.run_of_remote (policy.allow key) has.answered
  simp only [Policy.callAt, Policy.plan, Plan.run_map, answer]
  exact ⟨trivial, answered, congrArg (Keyed.get? · _) rows⟩

theorem hits (has : site.HasRow place store key none) {policy : Policy}
    (coarse : .ofMillis 1 ≤ policy.window) (n : Nat) :
    Machine.answers (policy.callAt place) (List.replicate n (.allow key)) site =
      (List.range n).map policy.answerAfter := by
  have step : ∀ count (s : Site), s.HasRow place store key (policy.rowAfter? count) →
      (policy.callAt place (.allow key) s).1 = policy.answerAfter count ∧
        (policy.callAt place (.allow key) s).2.HasRow place store key
          (policy.rowAfter? (count + 1)) := by
    intro count s has
    obtain ⟨answer, has'⟩ := has.allow policy
    obtain ⟨decided, row⟩ := policy.allow_run_of_rowAfter coarse has.row
    rw [row] at has'
    exact ⟨answer.trans decided, has'⟩
  rw [List.range_eq_range']
  exact (Machine.run_replicate step n 0 has).1

theorem brief_hits (has : site.HasRow place store key none) {policy : Policy}
    (brief : policy.window < .ofMillis 1) (n : Nat) :
    Machine.answers (policy.callAt place) (List.replicate n (.allow key)) site =
      List.replicate n (.decision (.ok .allow)) := by
  have step : ∀ (count : Nat) (s : Site), s.HasRow place store key none →
      (policy.callAt place (.allow key) s).1 = .decision (.ok .allow) ∧
        (policy.callAt place (.allow key) s).2.HasRow place store key none := by
    intro _ s has
    obtain ⟨answer, has'⟩ := has.allow policy
    obtain ⟨decided, row⟩ := policy.allow_run_of_brief brief has.row
    rw [row] at has'
    rw [decided] at answer
    exact ⟨answer, has'⟩
  rw [(Machine.run_replicate step n 0 has).1, List.map_const', List.length_range']

end Site.HasRow

namespace Policy

variable {policy : Policy}

theorem answerAfter_tells {count : Nat} (room : (count : Int) < Remote.Server.maxCount) :
    (policy.answerAfter count).admits = decide (count < policy.limit) ∧
      (policy.answerAfter count).denies = !decide (count < policy.limit) := by
  rw [answerAfter_of_room room]
  by_cases within : count < policy.limit
  · rw [if_pos within, decide_eq_true within]
    exact ⟨rfl, rfl⟩
  · rw [if_neg within, decide_eq_false within]
    exact ⟨rfl, rfl⟩

theorem verdict_tells (policy : Policy) (now deadline : Instant) (count : Nat) :
    (LimiterAnswer.decision (.ok (policy.verdict now ⟨deadline, count + 1⟩))).admits =
      decide (count < policy.limit) ∧
      (LimiterAnswer.decision (.ok (policy.verdict now ⟨deadline, count + 1⟩))).denies =
        !decide (count < policy.limit) := by
  by_cases within : count < policy.limit
  · rw [verdict_of_within (Nat.succ_le_of_lt within), decide_eq_true within]
    exact ⟨rfl, rfl⟩
  · rw [verdict_of_beyond (Nat.lt_succ_of_le (Nat.not_lt.mp within)), decide_eq_false within]
    exact ⟨rfl, rfl⟩

/-- The window that so many hits leave behind. -/
def standingWindow (deadline : Instant) (count : Nat) : Option Window :=
  if count = 0 then none else some ⟨deadline, count⟩

theorem next_standingWindow {now deadline : Instant} (future : now < deadline) (count : Nat) :
    Window.next now deadline (standingWindow deadline count) = ⟨deadline, count + 1⟩ := by
  rcases Nat.eq_zero_or_pos count with rfl | counts
  · rfl
  · rw [standingWindow, if_neg (Nat.ne_of_gt counts)]
    exact Window.next_of_running future

theorem limited_on_table (policy : Policy) {now deadline : Instant}
    (ends : now.add? policy.window = some deadline) (key : String) (n : Nat) :
    LimiterAnswer.Limited policy.limit
      (Machine.answers policy.serve (List.replicate n (now, .allow key)) .empty) := by
  have future := Instant.lt_of_add? ends policy.window_pos
  have step : ∀ count (table : Table), table.window? key = standingWindow deadline count →
      (policy.serve (now, .allow key) table).1 =
        .decision (.ok (policy.verdict now ⟨deadline, count + 1⟩)) ∧
        Table.window? (policy.serve (now, .allow key) table).2 key =
          standingWindow deadline (count + 1) := by
    intro count table shown
    simp only [serve, plan, Plan.run_map, allow_answer, window?_allow, shown, hit_of_end ends,
      next_standingWindow future, if_true]
    exact ⟨trivial, rfl⟩
  rw [(Machine.run_replicate step n 0 rfl).1, ← List.range_eq_range']
  refine LimiterAnswer.limited_of_each (fun i _ => ?_) fun i _ => ?_
  · exact (policy.verdict_tells now deadline i).1
  · exact (policy.verdict_tells now deadline i).2

theorem make_eq_ok {limit : Nat} {window : Span} (made : Policy.make limit window = .ok policy) :
    policy.limit = limit ∧ policy.window = window := by
  simp only [make] at made
  split at made
  case isFalse => cases made
  case isTrue =>
    split at made
    case isFalse => cases made
    case isTrue =>
      split at made
      case isFalse => cases made
      case isTrue =>
        cases made
        exact ⟨rfl, rfl⟩

/-- A policy limits hits on a server while the clock stands if and only if its window is a
    millisecond or more. Of a shorter window every hit is let through, although a table limits the
    same hits. -/
theorem limits_while_clock_stands_iff (limit : UInt32) (window : Span) (policy : Policy)
    (made : Policy.make limit.toNat window = .ok policy) :
    (∀ (site : Site) (place : Nat) (store : Remote.Store) (key : String),
      site.HasRow place store key none →
      let answers (n : Nat) :=
        Machine.answers (policy.callAt place) (List.replicate n (.allow key)) site
      (.ofMillis 1 ≤ window → ∀ n, answers n = (List.range n).map policy.answerAfter) ∧
      (window < .ofMillis 1 → ∀ n, answers n = List.replicate n (.decision (.ok .allow))) ∧
      ((∀ n : Nat, (n : Int) ≤ Remote.Server.maxCount →
          LimiterAnswer.Limited limit.toNat (answers n)) ↔
        .ofMillis 1 ≤ window)) ∧
    ∀ now key, (now.add? window).isSome → ∀ n, LimiterAnswer.Limited limit.toNat
      (Machine.answers policy.serve (List.replicate n (now, .allow key)) .empty) := by
  obtain ⟨same, rfl⟩ := make_eq_ok made
  rw [← same]
  have small : (policy.limit : Int) < Remote.Server.maxCount := by
    have word := limit.toNat_lt
    simp only [Remote.Server.maxCount]
    omega
  constructor
  · intro site place store key has answers
    refine ⟨has.hits, has.brief_hits, fun limited => ?_, fun coarse n room => ?_⟩
    · by_contra short
      -- One hit more than the limit is let through as well.
      have admitted : (LimiterAnswer.decision (.ok .allow)).admits = true := rfl
      have through := (limited (policy.limit + 1) small).1
      simp only [answers] at through
      rw [has.brief_hits (Nat.not_le.mp short), List.length_replicate, List.countP_replicate,
        if_pos admitted] at through
      omega
    · simp only [answers, has.hits coarse]
      refine LimiterAnswer.limited_of_each (fun i before => ?_) fun i before => ?_
      · exact (answerAfter_tells (by omega)).1
      · exact (answerAfter_tells (by omega)).2
  · intro now key inside n
    obtain ⟨deadline, ends⟩ := Option.isSome_iff_exists.mp inside
    exact policy.limited_on_table ends key n

/-- One hit is allowed in half a millisecond. Two are let through by a server, one by a table. -/
theorem limits_while_clock_stands_iff_for_half_a_millisecond :
    let policy : Policy := ⟨1, ⟨500000⟩, Nat.one_pos, by decide, by decide⟩
    let store : Remote.Store := ⟨"ns", .ofMillis 500⟩
    let site : Site := ⟨.epoch, [.remote store false], .empty⟩
    Policy.make (1 : UInt32).toNat ⟨500000⟩ = .ok policy ∧ site.HasRow 0 store "a" none ∧
      Machine.answers (policy.callAt 0) (List.replicate 2 (.allow "a")) site =
        [.decision (.ok .allow), .decision (.ok .allow)] ∧
      LimiterAnswer.Limited 1
        (Machine.answers policy.serve (List.replicate 2 (.epoch, .allow "a")) .empty) := by
  intro policy store site
  have has : site.HasRow 0 store "a" none := ⟨⟨rfl, rfl⟩, rfl⟩
  obtain ⟨served, tabled⟩ := limits_while_clock_stands_iff 1 ⟨500000⟩ policy rfl
  exact ⟨rfl, has, (served site 0 store "a" has).2.1 (by decide) 2, tabled .epoch "a" (by decide) 2⟩

/-- So it is not true of every policy that it limits hits on a server. -/
theorem not_limited_by_every_policy :
    ¬ ∀ (limit : UInt32) (window : Span) (policy : Policy),
      Policy.make limit.toNat window = .ok policy →
      ∀ (site : Site) (place : Nat) (store : Remote.Store) (key : String),
        site.HasRow place store key none →
        ∀ n : Nat, (n : Int) ≤ Remote.Server.maxCount → LimiterAnswer.Limited limit.toNat
          (Machine.answers (policy.callAt place) (List.replicate n (.allow key)) site) := by
  intro every
  have limited := every 1 ⟨500000⟩ ⟨1, ⟨500000⟩, Nat.one_pos, by decide, by decide⟩ rfl
    ⟨.epoch, [.remote ⟨"ns", .ofMillis 500⟩ false], .empty⟩ 0 ⟨"ns", .ofMillis 500⟩ "a"
    ⟨⟨rfl, rfl⟩, rfl⟩ 2 (by decide)
  exact absurd limited.1 (by decide)

end Policy

end LinkGuard
