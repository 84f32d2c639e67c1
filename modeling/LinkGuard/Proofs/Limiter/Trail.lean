import LinkGuard.Proofs.Limiter.Hit

/-! # How many hits an interval can admit

The hits of one key, in the order of the clock, leave a trail of the instants at which they were
admitted. The windows of a key follow one another without overlap, each one window length long or
longer apart, so an interval of `k` window lengths meets at most `k + 1` of them and each admits at
most as many hits as the limit says.
-/

namespace LinkGuard.Policy

/-- The instants at which hits of a key with window `w` are admitted from `since` on. A hit may also
    be turned away though the policy allows it: whoever asks may have other reasons. -/
inductive Trail (policy : Policy) : Int → Option Window → List Instant → Prop where
  | closed {since : Int} {w : Option Window} : Trail policy since w []
  /-- A hit that admits nobody. -/
  | turnedAway {since : Int} {w : Option Window} {now : Instant} {times : List Instant}
      (later : since ≤ now.nanos)
      (rest : Trail policy now.nanos (policy.hit now w).2 times) : Trail policy since w times
  /-- A hit that the policy allows and that is admitted. -/
  | admitted {since : Int} {w : Option Window} {now : Instant} {times : List Instant}
      (later : since ≤ now.nanos) (allowed : (policy.hit now w).1 = .ok .allow)
      (rest : Trail policy now.nanos (policy.hit now w).2 times) :
      Trail policy since w (now :: times)

variable {policy : Policy} {since : Int} {w : Option Window} {times : List Instant}

theorem hits_le_of_allowed {now : Instant} {v : Window} (allowed : policy.verdict now v = .allow) :
    v.hits ≤ policy.limit := by
  simp only [verdict] at allowed
  split at allowed
  case isTrue within => exact within
  case isFalse => simp [Decision.allow, Decision.deny] at allowed

/-- A window that ended at `start`, or will end there, has taken `used` of the hits it may admit. -/
def Spent (policy : Policy) (since : Int) (w : Option Window) (start : Int) (used : Nat) : Prop :=
  (∃ v, w = some v ∧ v.deadline.nanos = start ∧ v.hits = used) ∨
    ((∀ v ∈ w, v.deadline.nanos ≤ start) ∧ start ≤ since ∧ used = policy.limit)

namespace Trail

theorem since_le (trail : policy.Trail since w times) : ∀ t ∈ times, since ≤ t.nanos := by
  induction trail with
  | closed => simp
  | turnedAway later _ ih =>
      intro t member
      exact Int.le_trans later (ih t member)
  | admitted later _ _ ih =>
      intro t member
      rcases List.mem_cons.mp member with rfl | member
      · exact later
      · exact Int.le_trans later (ih t member)

theorem earlier {since' : Int} (before : since' ≤ since) (trail : policy.Trail since w times) :
    policy.Trail since' w times := by
  cases trail with
  | closed => exact .closed
  | turnedAway later rest => exact .turnedAway (Int.le_trans before later) rest
  | admitted later allowed rest => exact .admitted (Int.le_trans before later) allowed rest

end Trail

def countBefore (finish : Int) (times : List Instant) : Nat :=
  times.countP fun t => t.nanos < finish

def countWithin (start finish : Int) (times : List Instant) : Nat :=
  times.countP fun t => start ≤ t.nanos ∧ t.nanos < finish

theorem countBefore_cons (finish : Int) (t : Instant) (times : List Instant) :
    countBefore finish (t :: times) ≤ countBefore finish times + 1 := by
  simp only [countBefore, List.countP_cons]
  split <;> omega

theorem countBefore_eq_zero {finish : Int} (late : ∀ t ∈ times, finish ≤ t.nanos) :
    countBefore finish times = 0 := by
  simp only [countBefore, List.countP_eq_zero, decide_eq_true_eq]
  intro t member
  have := late t member
  omega

theorem countWithin_le_countBefore (start finish : Int) (times : List Instant) :
    countWithin start finish times ≤ countBefore finish times := by
  apply List.countP_mono_left
  intro t _ inside
  simp only [decide_eq_true_eq] at inside ⊢
  exact inside.2

/-- What one hit makes of the budget of its key. Either it falls into the window that was there and
    uses it up by one, or it opens a window, at or past `start`, that has one use. -/
theorem Spent.after_hit {start : Int} {used : Nat} (spent : policy.Spent since w start used)
    {now : Instant} (later : since ≤ now.nanos) :
    policy.hit now w = (.error (.windowOutOfRange policy.window), w) ∨
    (∃ v : Window, policy.hit now w = (.ok (policy.verdict now v), some v) ∧
      v.deadline.nanos = start ∧ v.hits = used + 1) ∨
    ∃ v : Window, policy.hit now w = (.ok (policy.verdict now v), some v) ∧ start ≤ now.nanos ∧
      v.deadline.nanos = now.nanos + policy.window.nanos ∧ v.hits = 1 := by
  cases ends : now.add? policy.window with
  | none => exact .inl (hit_of_no_end ends w)
  | some deadline =>
      have stretch := Instant.add?_eq_some_iff.mp ends
      rw [hit_of_end ends]
      rcases Window.running_or_closed now w with ⟨v, rfl, running⟩ | gone
      · rw [Window.next_of_running running]
        rw [Instant.lt_iff] at running
        rcases spent with ⟨u, same, ended, hits⟩ | ⟨ended, began, _⟩
        · cases same
          exact .inr (.inl ⟨_, rfl, ended, by rw [← hits]⟩)
        · have := ended v rfl
          omega
      · rw [Window.next_of_over gone]
        refine .inr (.inr ⟨_, rfl, ?_, stretch, rfl⟩)
        rcases spent with ⟨u, rfl, ended, _⟩ | ⟨_, began, _⟩
        · have := gone u rfl
          rw [Instant.le_iff] at this
          omega
        · omega

/-- The admissions still possible before `finish`, from a window spent like this on: what the window
    has left, and the full limit for each window length that fits in behind it. -/
def Affords (policy : Policy) (finish : Int) (since : Int) (w : Option Window)
    (times : List Instant) : Prop :=
  ∀ start used n, policy.Spent since w start used →
    finish ≤ start + (n * policy.window.nanos : Nat) →
    countBefore finish times ≤ policy.limit - used + n * policy.limit

theorem Affords.hit {finish : Int} {now : Instant} (later : since ≤ now.nanos)
    (late : ∀ t ∈ times, now.nanos ≤ t.nanos)
    (rest : policy.Affords finish now.nanos (policy.hit now w).2 times) :
    policy.Affords finish since w times ∧
      ((policy.hit now w).1 = .ok .allow → policy.Affords finish since w (now :: times)) := by
  have one_more := countBefore_cons finish now times
  have positive := policy.limit_pos
  suffices both : ∀ start used n, policy.Spent since w start used →
      finish ≤ start + (n * policy.window.nanos : Nat) →
      countBefore finish times ≤ policy.limit - used + n * policy.limit ∧
      ((policy.hit now w).1 = .ok .allow →
        countBefore finish (now :: times) ≤ policy.limit - used + n * policy.limit) by
    exact ⟨fun start used n spent reach => (both start used n spent reach).1,
      fun allowed start used n spent reach => (both start used n spent reach).2 allowed⟩
  intro start used n spent reach
  rcases spent.after_hit later
    with failed | ⟨v, joined, ends, hits⟩ | ⟨v, opened, began, ends, hits⟩
  · have kept : policy.Spent now.nanos w start used :=
      spent.imp_right fun ⟨ended, before, full⟩ => ⟨ended, Int.le_trans before later, full⟩
    rw [failed] at rest ⊢
    exact ⟨rest start used n kept reach, fun allowed => by simp at allowed⟩
  · rw [joined] at rest ⊢
    have remaining := rest start (used + 1) n (.inl ⟨v, rfl, ends, hits⟩) reach
    refine ⟨by omega, fun allowed => ?_⟩
    have within := hits_le_of_allowed (Except.ok.inj allowed)
    omega
  · rw [opened] at rest ⊢
    by_cases past : finish ≤ now.nanos
    · have none := countBefore_eq_zero (fun t member => Int.le_trans past (late t member))
      have none' : countBefore finish (now :: times) = 0 := by
        apply countBefore_eq_zero
        intro t member
        rcases List.mem_cons.mp member with rfl | member
        · exact past
        · exact Int.le_trans past (late t member)
      omega
    · -- The window opened before the end, so one window length of the interval is paid for by it.
      obtain ⟨m, rfl⟩ : ∃ m, n = m + 1 := by
        cases n with
        | zero => omega
        | succ m => exact ⟨m, rfl⟩
      rw [Nat.succ_mul] at reach ⊢
      have remaining := rest _ 1 m (.inl ⟨v, rfl, ends, hits⟩) (by omega)
      constructor <;> omega

theorem Trail.affords (trail : policy.Trail since w times) (finish : Int) :
    policy.Affords finish since w times := by
  induction trail with
  | closed =>
      intro start used n _ _
      simp [countBefore]
  | turnedAway later rest ih => exact (Affords.hit later rest.since_le ih).1
  | admitted later allowed rest ih => exact (Affords.hit later rest.since_le ih).2 allowed

theorem Trail.countBefore_le (trail : policy.Trail since w times) (k : Nat) :
    countBefore (since + (k * policy.window.nanos : Nat)) times ≤ (k + 1) * policy.limit := by
  rw [Nat.succ_mul]
  by_cases running : ∃ v, w = some v ∧ since < v.deadline.nanos
  · obtain ⟨v, found, running⟩ := running
    have bound := trail.affords (since + (k * policy.window.nanos : Nat)) _ v.hits k
      (.inl ⟨v, found, rfl, rfl⟩) (by omega)
    omega
  · have gone : ∀ v ∈ w, v.deadline.nanos ≤ since := by
      intro v found
      exact Int.not_lt.mp fun runs => running ⟨v, found, runs⟩
    have bound :=
      trail.affords _ since policy.limit k (.inr ⟨gone, Int.le_refl _, rfl⟩) (Int.le_refl _)
    omega

/-- In any half-open interval of `k` window lengths, wherever it starts, at most `(k + 1) * limit`
    hits of a key are admitted. -/
theorem Trail.countWithin_le (trail : policy.Trail since w times) (start : Int) (k : Nat) :
    countWithin start (start + (k * policy.window.nanos : Nat)) times ≤ (k + 1) * policy.limit := by
  have inside {since : Int} {w : Option Window} {times : List Instant} (before : start ≤ since)
      (trail : policy.Trail since w times) :
      countWithin start (start + (k * policy.window.nanos : Nat)) times ≤ (k + 1) * policy.limit :=
    Nat.le_trans (countWithin_le_countBefore _ _ _) ((trail.earlier before).countBefore_le k)
  induction trail with
  | closed => simp [countWithin]
  | turnedAway later rest ih => exact ih
  | @admitted since w now times later allowed rest ih =>
      by_cases before : start ≤ now.nanos
      · exact inside before (.admitted (Int.le_refl _) allowed rest)
      · have outside : ¬ (start ≤ now.nanos ∧
            now.nanos < start + (k * policy.window.nanos : Nat)) :=
          fun within => before within.1
        simp only [countWithin, List.countP_cons, outside, decide_false,
          Bool.false_eq_true, if_false]
        exact ih

end LinkGuard.Policy
