import LinkGuard.Proofs.Limiter.PairRun

/-! # How long a denial holds

A window that has no room left gets none before it ends, whatever is hit meanwhile, and its end
stays where it is. So the dimension whose window named the wait of a denial goes on denying until
that wait is over.
-/

namespace LinkGuard

namespace Policy

variable {policy : Policy} {now : Instant} {w : Option Window}

theorem deadline_hit_le {t : Instant} (past : now ≤ t)
    (bounded : ∀ v ∈ w, v.deadline.nanos ≤ t.nanos + policy.window.nanos) :
    ∀ v ∈ (policy.hit now w).2, v.deadline.nanos ≤ t.nanos + policy.window.nanos := by
  intro v found
  cases ends : now.add? policy.window with
  | none =>
      rw [hit_of_no_end ends] at found
      exact bounded v found
  | some deadline =>
      rw [hit_of_end ends] at found
      obtain rfl := Option.some.inj found
      rcases Window.running_or_closed now w with ⟨u, rfl, running⟩ | gone
      · rw [Window.next_of_running running]
        exact bounded u rfl
      · have sum := Instant.add?_eq_some_iff.mp ends
        rw [Instant.le_iff] at past
        rw [Window.next_of_over gone]
        show deadline.nanos ≤ _
        omega

theorem hit_of_running {u : Window} (running : now < u.deadline) :
    ∃ v, (policy.hit now (some u)).2 = some v ∧ v.deadline = u.deadline ∧ u.hits ≤ v.hits := by
  cases ends : now.add? policy.window with
  | none =>
      rw [hit_of_no_end ends]
      exact ⟨u, rfl, rfl, Nat.le_refl _⟩
  | some deadline =>
      rw [hit_of_end ends, Window.next_of_running running]
      exact ⟨_, rfl, rfl, Nat.le_succ _⟩

end Policy

namespace PlacedLimiter

/-- No window ends later than one that opens at `t`. -/
def Paced (placed : PlacedLimiter) (t : Instant) (site : Site) : Prop :=
  ∀ d name, ∀ v ∈ placed.window? site d name,
    v.deadline.nanos ≤ t.nanos + (placed.policy d).window.nanos

/-- The window of a name that ends at `deadline` has taken more hits than it may let through. -/
def Held (placed : PlacedLimiter) (d : Dimension) (name : String) (deadline : Instant)
    (site : Site) : Prop :=
  ∃ v ∈ placed.window? site d name, v.deadline = deadline ∧ (placed.policy d).limit < v.hits

variable {placed : PlacedLimiter} {site : Site} {t now deadline : Instant} {d : Dimension}
  {address identity name : String} {r : Span}

theorem Fresh.paced (fresh : placed.Fresh site) : placed.Paced t site := by
  intro d name v found
  rw [fresh.window?] at found
  cases found

theorem Paced.serve (paced : placed.Paced t site) (tables : placed.OnTables site) (past : now ≤ t)
    (call : PairCall) : placed.Paced t (placed.serve (now, call) site).2 := by
  intro d name v found
  rw [window?_serve tables] at found
  split at found
  · exact Policy.deadline_hit_le past (paced d name) v found
  · exact paced d name v found

theorem Paced.reached (paced : placed.Paced t site) (tables : placed.OnTables site)
    {calls : List (Instant × PairCall)} (past : ∀ call ∈ calls, call.1 ≤ t) :
    placed.Paced t (Machine.reached placed.serve calls site) :=
  reached_keeps tables
    (fun call member _ tables paced => paced.serve tables (past call member) call.2) paced

theorem Held.serve (held : placed.Held d name deadline site) (tables : placed.OnTables site)
    (early : now < deadline) (call : PairCall) :
    placed.Held d name deadline (placed.serve (now, call) site).2 := by
  obtain ⟨u, found, rfl, beyond⟩ := held
  rw [Option.mem_def] at found
  have moved := window?_serve tables now call d name
  rw [found] at moved
  split at moved
  · obtain ⟨v, next, same, more⟩ := (placed.policy d).hit_of_running early
    exact ⟨v, moved.trans next, same, Nat.lt_of_lt_of_le beyond more⟩
  · exact ⟨u, moved, rfl, beyond⟩

theorem Held.reached (held : placed.Held d name deadline site) (tables : placed.OnTables site)
    {calls : List (Instant × PairCall)} (early : ∀ call ∈ calls, call.1 < deadline) :
    placed.Held d name deadline (Machine.reached placed.serve calls site) :=
  reached_keeps tables
    (fun call member _ tables held => held.serve tables (early call member) call.2) held

theorem Held.deadline_le (held : placed.Held d name deadline site) (paced : placed.Paced t site) :
    deadline.nanos ≤ t.nanos +
      (max placed.limiter.address.window placed.limiter.identity.window).nanos := by
  obtain ⟨v, found, rfl, _⟩ := held
  have bounded := paced d name v found
  have longest : (placed.policy d).window ≤
      max placed.limiter.address.window placed.limiter.identity.window := by
    cases d with
    | address => exact Span.le_max_left _ _
    | identity => exact Span.le_max_right _ _
  rw [Span.le_iff] at longest
  omega

/-- A denial for want of room comes from a window that ends with the wait, and leaves it held until
    then. -/
theorem held_of_denied (tables : placed.OnTables site) (reach : placed.Reaches now)
    (denied : (placed.serve (now, .allow address identity) site).1 = .decision (.deny r)) :
    ∃ d deadline, placed.Held d (d.pick address identity) deadline
        (placed.serve (now, .allow address identity) site).2 ∧
      deadline.nanos = now.nanos + r.nanos ∧ now < deadline := by
  have tables : placed.OnTables { site with now } := tables
  have denied : (placed.allow address identity { site with now }).1 = .deny r :=
    PairAnswer.decision.inj denied
  obtain ⟨v, hit, ⟨_, allowed⟩ | ⟨e, _, beyond, answer, ends, _⟩⟩ :=
    allow_cases tables reach address identity
  · rw [denied] at allowed
    cases allowed
  · obtain rfl : r = _ := congrArg Decision.retryAfter (denied.symm.trans answer)
    have moved := window?_allow tables address identity e (e.pick address identity)
    rw [if_pos rfl, (hit e).1] at moved
    exact ⟨e, (v e).deadline, ⟨v e, moved, rfl, beyond⟩, ends, (hit e).2⟩

/-- While the window of one of its names is held, a call is denied, and not let off before that
    window ends. -/
theorem denied_of_held (tables : placed.OnTables site) (reach : placed.Reaches now)
    (held : placed.Held d (d.pick address identity) deadline site) (early : now < deadline) :
    ∃ r, (placed.serve (now, .allow address identity) site).1 = .decision (.deny r) ∧
      deadline.nanos ≤ now.nanos + r.nanos := by
  have tables : placed.OnTables { site with now } := tables
  obtain ⟨v, hit, outcome⟩ := allow_cases tables reach address identity
  obtain ⟨u, found, rfl, beyond⟩ := held
  obtain ⟨w, next, same, more⟩ := (placed.policy d).hit_of_running early
  have taken : ((placed.policy d).hit now (placed.window? site d (d.pick address identity))).2 =
      some (v d) :=
    congrArg Prod.snd (hit d).1
  rw [Option.mem_def.mp found, next] at taken
  obtain rfl : w = v d := Option.some.inj taken
  have full : (placed.policy d).limit < (v d).hits := Nat.lt_of_lt_of_le beyond more
  rcases outcome with ⟨room, _⟩ | ⟨e, r, _, answer, ends, latest⟩
  · exact absurd (room d) (Nat.not_le.mpr full)
  · have last := latest d full
    rw [same, Instant.le_iff, ends] at last
    exact ⟨r, congrArg PairAnswer.decision answer, last⟩

theorem le_of_mem_take {α : Type} {calls : List (Instant × α)}
    (ordered : (calls.map Prod.fst).Pairwise (· ≤ ·)) {j : Nat} {call : α}
    (found : calls[j]? = some (t, call)) :
    ∀ earlier ∈ calls.take j, earlier.1 ≤ t := by
  intro earlier member
  rw [List.pairwise_map, List.pairwise_iff_getElem] at ordered
  obtain ⟨k, inside, rfl⟩ := List.mem_take_iff_getElem.mp member
  obtain ⟨bound, at_j⟩ := List.getElem?_eq_some_iff.mp found
  have before := ordered k j (by omega) bound (by omega)
  rw [at_j] at before
  exact before

/-- In a run on fresh tables, under a clock that never goes back, a denial names a wait that is
    neither empty nor longer than the longer window. Until it is over, whatever is called meanwhile,
    the same address and identity are denied every time, with a wait that ends no earlier. -/
theorem denied_throughout_wait (placed : PlacedLimiter) (start : Site) (fresh : placed.Fresh start)
    (calls : List (Instant × PairCall)) (ordered : (calls.map Prod.fst).Pairwise (· ≤ ·))
    (reach : ∀ call ∈ calls, placed.Reaches call.1) :
    let answers := Machine.answers placed.serve calls start
    ∀ (i : Nat) (t : Instant) (address identity : String) (r : Span),
      calls[i]? = some (t, .allow address identity) →
      answers[i]? = some (.decision (.deny r)) →
      (.zero < r ∧ r ≤ max placed.limiter.address.window placed.limiter.identity.window) ∧
      ∀ (j : Nat) (t' : Instant), i < j → calls[j]? = some (t', .allow address identity) →
        t'.nanos < t.nanos + r.nanos →
        ∃ r', answers[j]? = some (.decision (.deny r')) ∧
          t.nanos + r.nanos ≤ t'.nanos + r'.nanos := by
  intro answers i t address identity r called denied
  have tables : ∀ j, placed.OnTables (Machine.reached placed.serve (calls.take j) start) := fun j =>
    onTables_reached fresh.onTables _
  simp only [answers, Machine.answers_getElem?, called, Option.map_some,
    Option.some.injEq] at denied
  have reaches : placed.Reaches t := reach _ (List.mem_of_getElem? called)
  -- From here on only the one window that named the wait matters.
  obtain ⟨d, deadline, held, ends, running⟩ := held_of_denied (tables i) reaches denied
  constructor
  · have paced := fresh.paced.reached fresh.onTables (le_of_mem_take ordered called)
    have bounded := held.deadline_le (paced.serve (tables i) (Int.le_refl _) _)
    rw [Instant.lt_iff] at running
    simp only [Span.lt_iff, Span.le_iff, Span.nanos_zero]
    constructor <;> omega
  · intro j t' later again early
    have before : t' < deadline := by
      rw [Instant.lt_iff]
      omega
    have meanwhile : ∀ call ∈ (calls.take j).drop (i + 1), call.1 < deadline := fun call member =>
      Int.lt_of_le_of_lt (le_of_mem_take ordered again call (List.mem_of_mem_drop member)) before
    have still := held.reached (onTables_serve (tables i) t _) meanwhile
    rw [← Machine.reached_take_of_lt placed.serve called later] at still
    have reaches' : placed.Reaches t' := reach _ (List.mem_of_getElem? again)
    obtain ⟨r', denied', enough⟩ := denied_of_held (tables j) reaches' still before
    rw [ends] at enough
    refine ⟨r', ?_, enough⟩
    simp only [answers, Machine.answers_getElem?, again, Option.map_some, denied']

/-- Asked twice at once, and once more half a minute later, after somebody else. -/
theorem denied_throughout_wait_of_a_minute :
    let calls : List (Instant × PairCall) :=
      [(.epoch, .allow "192.0.2.1" "a"), (.epoch, .allow "192.0.2.1" "a"),
        (.sinceEpoch (.ofSeconds 30), .allow "192.0.2.2" "a"),
        (.sinceEpoch (.ofSeconds 30), .allow "192.0.2.1" "a")]
    let answers := Machine.answers tight.serve calls oneTable
    tight.Fresh oneTable ∧ (calls.map Prod.fst).Pairwise (· ≤ ·) ∧
    (∀ call ∈ calls, tight.Reaches call.1) ∧
    answers[1]? = some (.decision (.deny (.ofSeconds 60))) ∧
    ∃ r', answers[3]? = some (.decision (.deny r')) ∧
      60000000000 ≤ 30000000000 + (r'.nanos : Int) := by
  intro calls answers
  have ordered : (calls.map Prod.fst).Pairwise (· ≤ ·) := by decide
  have reach : ∀ call ∈ calls, tight.Reaches call.1 := by decide
  have denied : answers[1]? = some (.decision (.deny (.ofSeconds 60))) := rfl
  refine ⟨fresh_oneTable, ordered, reach, denied, ?_⟩
  exact (denied_throughout_wait tight oneTable fresh_oneTable calls ordered reach 1 .epoch
    "192.0.2.1" "a" (.ofSeconds 60) rfl denied).2 3 (.sinceEpoch (.ofSeconds 30)) (by decide) rfl
    (by decide)

end PlacedLimiter

end LinkGuard
