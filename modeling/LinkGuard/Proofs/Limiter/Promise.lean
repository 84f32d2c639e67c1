import LinkGuard.Proofs.Limiter.PairRun

/-! # A wait that is told beforehand

Whoever asks for the wait of an address and an identity is told how long the later of their two
windows still runs. So the wait is long enough, it is no shorter than that of a denial for want of
room, and asking for it leaves no trace.
-/

namespace LinkGuard

namespace Policy

variable {policy : Policy} {now : Instant} {w : Option Window}

theorem hit_of_over (ends : (now.add? policy.window).isSome) (closed : ∀ v ∈ w, v.deadline ≤ now) :
    (policy.hit now w).1 = .ok .allow := by
  obtain ⟨deadline, ends⟩ := Option.isSome_iff_exists.mp ends
  have within : (Window.mk deadline 1).hits ≤ policy.limit := policy.limit_pos
  rw [hit_of_end ends, Window.next_of_over closed, verdict_of_within within]

/-- The wait of a key is told from its window, or is longer: a counter without an end stands for no
    window. -/
theorem remaining_le_wait (policy : Policy) (now : Instant) (key : String) (table : Table) :
    Window.remaining now (table.window? key) ≤ policy.wait (table.remaining now key) := by
  simp only [Table.window?, Table.remaining]
  cases table.get? key with
  | none => exact Nat.zero_le _
  | some entry =>
      rcases entry with ⟨count, expiry⟩
      cases expiry with
      | none => exact Nat.zero_le _
      | some deadline =>
          exact Nat.le_of_eq (congrArg Span.nanos (policy.wait_ttl ⟨deadline, count⟩ now).symm)

theorem cooldown_answer_of_table {site : Site} {place : Nat} (has : site.HasTable place)
    (policy : Policy) (key : String) :
    ∃ wait, ((policy.cooldown key).run (Site.handler place) site).1 = .ok wait ∧
      Window.remaining site.now (site.window? place key) ≤ wait := by
  obtain ⟨table, found⟩ := has.elim
  refine ⟨policy.wait (table.remaining site.now key), ?_, ?_⟩
  · rw [Site.run_of_table _ found, cooldown_run]
  · rw [Site.window?, found, Option.bind_some]
    exact policy.remaining_le_wait site.now key table

end Policy

namespace PlacedLimiter

/-- A moment of a run into which questions for a wait have been put: a call of the run itself, or
    such a question. -/
inductive Moment where
  | own (now : Instant) (call : PairCall)
  | put (now : Instant) (address identity : String)

/-- What is asked of the limiter at a moment. -/
def Moment.asked : Moment → Instant × PairCall
  | own now call => (now, call)
  | put now address identity => (now, .cooldown address identity)

def Moment.own? : Moment → Option (Instant × PairCall)
  | own now call => some (now, call)
  | put _ _ _ => none

/-- The run with the questions put in. -/
def serveMoment (placed : PlacedLimiter) : Machine Moment Site PairAnswer :=
  fun moment => placed.serve moment.asked

variable {placed : PlacedLimiter} {site site' : Site} {address identity : String} {now : Instant}

theorem remaining_le_cooldown (tables : placed.OnTables site) (address identity : String)
    (d : Dimension) :
    Window.remaining site.now (placed.window? site d (d.pick address identity)) ≤
      (placed.cooldown address identity site).1 := by
  have first : site.HasTable placed.addressPlace := tables .address
  have second : site.HasTable placed.identityPlace := tables .identity
  obtain ⟨a, answer, long⟩ :=
    Policy.cooldown_answer_of_table first placed.limiter.address (Dimension.address.key address)
  obtain ⟨b, answer', long'⟩ :=
    Policy.cooldown_answer_of_table second placed.limiter.identity (Dimension.identity.key identity)
  have settled : (placed.cooldown address identity site).1 = max a b := by
    simp only [cooldown, PairLimiter.cooldown, turns_eq_nil tables, Plan.runBoth,
      Policy.cooldown_of_table first, answer, answer', PairLimiter.settleWait]
  rw [settled]
  cases d with
  | address => exact Nat.le_trans long (Span.le_max_left a b)
  | identity => exact Nat.le_trans long' (Span.le_max_right a b)

theorem deadline_le_of_cooldown (tables : placed.OnTables site) {d : Dimension} {v : Window}
    (found : v ∈ placed.window? site d (d.pick address identity)) :
    v.deadline.nanos ≤ site.now.nanos + (placed.cooldown address identity site).1.nanos := by
  have long := remaining_le_cooldown tables address identity d
  rw [Option.mem_def.mp found, Window.remaining, Span.le_iff, Instant.nanos_since] at long
  omega

theorem allow_after_wait (tables : placed.OnTables site) {between : List (Instant × PairCall)}
    (spared : ∀ call ∈ between, ∀ d, call.2.hits d (d.pick address identity) = false)
    {later : Instant}
    (waited : site.now.nanos + (placed.cooldown address identity site).1.nanos ≤ later.nanos)
    (reach : placed.Reaches later) :
    (placed.serve (later, .allow address identity) (Machine.reached placed.serve between site)).1 =
      .decision .allow := by
  have tables' : placed.OnTables { Machine.reached placed.serve between site with now := later } :=
    onTables_reached tables between
  refine congrArg PairAnswer.decision
    ((allow_eq_allow_iff tables' address identity).mpr fun d => ?_)
  apply Policy.hit_of_over (reach d)
  intro v found
  have before : v ∈ placed.window? site d (d.pick address identity) := by
    rw [← window?_reached_of_spared tables fun call member => spared call member d]
    exact found
  exact Int.le_trans (deadline_le_of_cooldown tables before) waited

theorem now_allow (tables : placed.OnTables site) (address identity : String) :
    (placed.allow address identity site).2.now = site.now := by
  rw [allow_eq tables]
  exact (Site.now_run (hasTable_between tables address .identity) _).trans
    (Site.now_run (tables .address) _)

theorem le_cooldown_of_denied (tables : placed.OnTables site) {r : Span}
    (denied : (placed.allow address identity site).1 = .deny r) :
    (¬ placed.Reaches site.now ∧ r = placed.limiter.storeErrorCooldown) ∨
      r ≤ (placed.cooldown address identity (placed.allow address identity site).2).1 := by
  by_cases reach : placed.Reaches site.now
  · refine .inr ?_
    obtain ⟨v, hit, ⟨_, allowed⟩ | ⟨e, _, _, answer, ends, _⟩⟩ :=
      allow_cases tables reach address identity
    · rw [denied] at allowed
      cases allowed
    · obtain rfl : r = _ := congrArg Decision.retryAfter (denied.symm.trans answer)
      have moved := window?_allow tables address identity e (e.pick address identity)
      rw [if_pos rfl, (hit e).1] at moved
      have told :=
        deadline_le_of_cooldown (onTables_allow tables address identity) (Option.mem_def.mpr moved)
      rw [now_allow tables, ends] at told
      rw [Span.le_iff]
      omega
  · refine .inl ⟨reach, ?_⟩
    obtain ⟨d, endless⟩ := Classical.not_forall.mp reach
    let answers := fun d => (placed.hit site d (d.pick address identity)).1
    have failed : answers d = .error (.windowOutOfRange (placed.policy d).window) :=
      congrArg Prod.fst (Policy.hit_of_no_end (Option.not_isSome_iff_eq_none.mp endless) _)
    have settled := placed.limiter.settle_of_error failed
    exact congrArg Decision.retryAfter
      (denied.symm.trans ((allow_answer tables address identity).trans settled))

/-- Two sites that are the same but for what their clocks show, with tables for the limiters. -/
structure SameStores (placed : PlacedLimiter) (site site' : Site) : Prop where
  tables : placed.OnTables site
  stores : site.stores = site'.stores
  server : site.server = site'.server

theorem SameStores.question (same : placed.SameStores site site') (now : Instant)
    (address identity : String) :
    placed.SameStores (placed.serve (now, .cooldown address identity) site).2 site' := by
  have tables : placed.OnTables { site with now } := same.tables
  simp only [serve, cooldown_site tables]
  exact ⟨tables, same.stores, same.server⟩

theorem SameStores.serve (same : placed.SameStores site site') (input : Instant × PairCall) :
    (placed.serve input site).1 = (placed.serve input site').1 ∧
      placed.SameStores (placed.serve input site).2 (placed.serve input site').2 := by
  obtain ⟨now, call⟩ := input
  have alike : placed.serve (now, call) site = placed.serve (now, call) site' := by
    cases call with
    | allow address identity => simp only [PlacedLimiter.serve, same.stores, same.server]
    | cooldown address identity => simp only [PlacedLimiter.serve, same.stores, same.server]
  rw [← alike]
  exact ⟨rfl, onTables_serve same.tables now call, rfl, rfl⟩

/-- Questions that are put into a run leave no trace in it. -/
theorem questions_unnoticed (tables : placed.OnTables site) (moments : List Moment) :
    Machine.answersTo placed.serveMoment Moment.own? moments site =
        Machine.answers placed.serve (moments.filterMap Moment.own?) site ∧
      placed.SameStores (Machine.reached placed.serveMoment moments site)
        (Machine.reached placed.serve (moments.filterMap Moment.own?) site) := by
  apply Machine.run_picked (R := placed.SameStores)
  · intro moment site site' foreign same
    cases moment with
    | own now call => cases foreign
    | put now address identity => exact same.question now address identity
  · intro moment input site site' own same
    cases moment with
    | own now call =>
        obtain rfl := Option.some.inj own
        exact same.serve (now, call)
    | put now address identity => cases own
  · exact ⟨tables, rfl, rfl⟩

/-- Limiters on tables, whatever these hold. The wait that is told for an address and an identity is
    enough: once it is over a call goes through, if only no call in between hit either name,
    wherever the clock went meanwhile. Told right after a denial it is no shorter than that of the
    denial, unless the denial came of a window without an end. And questions for a wait, put into a
    run at any moments, change neither the answers to its calls nor the stores. -/
theorem told_wait_is_kept (placed : PlacedLimiter) (site : Site) (tables : placed.OnTables site) :
    (∀ now address identity,
      let question := placed.serve (now, .cooldown address identity) site
      ∃ wait, question.1 = .wait wait ∧
        ∀ between : List (Instant × PairCall),
          (∀ call ∈ between, ∀ d, call.2.hits d (d.pick address identity) = false) →
        ∀ later : Instant, now.nanos + wait.nanos ≤ later.nanos → placed.Reaches later →
          (placed.serve (later, .allow address identity)
            (Machine.reached placed.serve between question.2)).1 = .decision .allow) ∧
    (∀ now address identity r,
      let denial := placed.serve (now, .allow address identity) site
      denial.1 = .decision (.deny r) →
        (¬ placed.Reaches now ∧ r = placed.limiter.storeErrorCooldown) ∨
        ∃ wait,
          (placed.serve (now, .cooldown address identity) denial.2).1 = .wait wait ∧ r ≤ wait) ∧
    ∀ moments,
      Machine.answersTo placed.serveMoment Moment.own? moments site =
        Machine.answers placed.serve (moments.filterMap Moment.own?) site ∧
      (Machine.reached placed.serveMoment moments site).stores =
        (Machine.reached placed.serve (moments.filterMap Moment.own?) site).stores := by
  refine ⟨?_, ?_, ?_⟩
  · intro now address identity question
    have tables : placed.OnTables { site with now } := tables
    have unmoved : question.2 = { site with now } := cooldown_site tables address identity
    refine ⟨_, rfl, fun between spared later waited reach => ?_⟩
    rw [unmoved]
    exact allow_after_wait tables spared waited reach
  · intro now address identity r denial denied
    have tables : placed.OnTables { site with now } := tables
    have still : denial.2.now = now := now_allow tables address identity
    have unmoved : { denial.2 with now } = denial.2 := by
      rw [← still]
    have told := le_cooldown_of_denied tables (PairAnswer.decision.inj denied)
    refine told.imp_right fun long => ⟨_, rfl, ?_⟩
    rw [unmoved]
    exact long
  · intro moments
    obtain ⟨answers, same⟩ := questions_unnoticed tables moments
    exact ⟨answers, same.stores⟩

/-- Two calls have been made. -/
def twiceAsked : Site :=
  Machine.reached tight.serve
    [(.epoch, .allow "192.0.2.1" "a"), (.epoch, .allow "192.0.2.1" "a")] oneTable

/-- The window of the address is the later one to end, an hour from now, and then a call goes
    through. -/
theorem told_wait_is_kept_of_an_hour :
    let hour := Instant.sinceEpoch (.ofSeconds 3600)
    let told := tight.serve (.epoch, .cooldown "192.0.2.1" "a") twiceAsked
    let denial := tight.serve (.epoch, .allow "192.0.2.1" "a") twiceAsked
    tight.OnTables twiceAsked ∧ told.1 = .wait (.ofSeconds 3600) ∧ tight.Reaches hour ∧
    (tight.serve (hour, .allow "192.0.2.1" "a")
      (Machine.reached tight.serve [(.epoch, .allow "192.0.2.2" "b")] told.2)).1 =
        .decision .allow ∧
    denial.1 = .decision (.deny (.ofSeconds 3600)) ∧
    (∃ wait, (tight.serve (.epoch, .cooldown "192.0.2.1" "a") denial.2).1 = .wait wait ∧
      .ofSeconds 3600 ≤ wait) ∧
    Machine.answersTo tight.serveMoment Moment.own?
        [.put .epoch "192.0.2.1" "a", .own hour (.allow "192.0.2.1" "a")] twiceAsked =
      Machine.answers tight.serve [(hour, .allow "192.0.2.1" "a")] twiceAsked := by
  intro hour told denial
  have tables : tight.OnTables twiceAsked := onTables_reached fresh_oneTable.onTables _
  have reach : tight.Reaches hour := by decide
  have spared : ∀ call ∈ [(Instant.epoch, PairCall.allow "192.0.2.2" "b")], ∀ d,
      call.2.hits d (d.pick "192.0.2.1" "a") = false := by decide
  obtain ⟨enough, long, unnoticed⟩ := told_wait_is_kept tight twiceAsked tables
  have longer := (long .epoch "192.0.2.1" "a" (.ofSeconds 3600) rfl).resolve_left fun failed =>
    failed.1 (by decide)
  obtain ⟨wait, same, kept⟩ := enough .epoch "192.0.2.1" "a"
  obtain rfl : .ofSeconds 3600 = wait := PairAnswer.wait.inj same
  exact ⟨tables, rfl, reach, kept _ spared hour (by decide) reach, rfl, longer, (unnoticed _).1⟩

/-- The limiter with half an hour to wait for a store without an answer. -/
def cautious : PlacedLimiter :=
  { tight with limiter.storeErrorCooldown := PairLimiter.defaultCooldown }

/-- The wait that is told right after a denial may be shorter than that of the denial: where a new
    window would end past the calendar, the denial names a wait that is set beforehand, and no
    counter was touched. -/
theorem told_wait_may_be_shorter :
    ¬ ∀ (placed : PlacedLimiter) (start : Site), placed.Fresh start →
      ∀ (before : List (Instant × PairCall)) (now : Instant) (address identity : String)
        (r wait : Span),
      let denial :=
        placed.serve (now, .allow address identity) (Machine.reached placed.serve before start)
      denial.1 = .decision (.deny r) →
      (placed.serve (now, .cooldown address identity) denial.2).1 = .wait wait → r ≤ wait := by
  intro long
  have longer :=
    long cautious oneTable fresh_oneTable [] .last "192.0.2.1" "a" (.ofSeconds 1800) .zero rfl rfl
  exact absurd longer (by decide)

end PlacedLimiter

end LinkGuard
