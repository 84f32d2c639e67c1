import LinkGuard.Proofs.Limiter.PairRun

/-! # Trying again after the wait

A denial names a wait after which the windows that were full are over. It says nothing of the other
dimension, which let the call pass and counted it all the same: if that call took the last room of a
window that outlasts the wait, the next attempt is denied there.
-/

namespace LinkGuard

theorem Policy.hit_allowed_iff {policy : Policy} {now : Instant}
    (ends : (now.add? policy.window).isSome) (v : Window) :
    (policy.hit now (some v)).1 = .ok .allow ↔ v.deadline ≤ now ∨ v.hits < policy.limit := by
  obtain ⟨deadline, ends⟩ := Option.isSome_iff_exists.mp ends
  have room := policy.limit_pos
  rw [Policy.hit_of_end ends, Except.ok.injEq]
  by_cases running : now < v.deadline
  · have open_still : ¬ v.deadline ≤ now := fun closed => Instant.not_lt.mpr closed running
    rw [Window.next_of_running running]
    constructor
    · intro allowed
      refine .inr (Nat.lt_of_not_le fun full => ?_)
      rw [Policy.verdict_of_beyond (Nat.lt_succ_of_le full)] at allowed
      cases allowed
    · intro fits
      exact Policy.verdict_of_within (fits.resolve_left open_still)
  · have closed := Instant.not_lt.mp running
    rw [Window.next_of_over fun u same => by rw [← Option.some.inj same]; exact closed]
    exact ⟨fun _ => .inl closed, fun _ => Policy.verdict_of_within room⟩

namespace PlacedLimiter

/-- Nothing in between hits the name. -/
theorem hit_later_iff {placed : PlacedLimiter} {site : Site} (tables : placed.OnTables site)
    {d : Dimension} {name : String} {v : Window} (found : placed.window? site d name = some v)
    {between : List (Instant × PairCall)} (spared : ∀ call ∈ between, call.2.hits d name = false)
    {retry : Instant} (reach : placed.Reaches retry) :
    let later := { Machine.reached placed.serve between site with now := retry }
    (placed.hit later d name).1 = .ok .allow ↔
      v.deadline ≤ retry ∨ v.hits < (placed.policy d).limit := by
  intro later
  have kept : placed.window? later d name = some v :=
    (window?_reached_of_spared tables spared).trans found
  rw [PlacedLimiter.hit, kept]
  exact Policy.hit_allowed_iff (reach d) v

/-- A call is denied with a wait though no store failed, and no call in between hits either of its
    names. After the wait it goes through if and only if each dimension that did not deny it, with
    the denied call counted, has its window over by then or has room left in it; a dimension that
    did deny it always lets it pass. -/
theorem retry_allowed_iff (placed : PlacedLimiter) (site : Site) (tables : placed.OnTables site)
    (address identity : String)
    (answered : ∀ d, ∃ decision, (placed.hit site d (d.pick address identity)).1 = .ok decision)
    (r : Span) (denied : (placed.allow address identity site).1 = .deny r)
    (between : List (Instant × PairCall))
    (spared : ∀ call ∈ between, ∀ d, call.2.hits d (d.pick address identity) = false)
    (retry : Instant) (waited : site.now.add? r = some retry) (reach : placed.Reaches retry) :
    let after := (placed.allow address identity site).2
    let later := { Machine.reached placed.serve between after with now := retry }
    ((placed.allow address identity later).1 = .allow ↔
      ∀ d, (placed.hit site d (d.pick address identity)).1 = .ok .allow →
        ∀ v ∈ placed.window? after d (d.pick address identity),
          v.deadline ≤ retry ∨ v.hits < (placed.policy d).limit) ∧
    ∀ d wait, (placed.hit site d (d.pick address identity)).1 = .ok (.deny wait) →
      (placed.hit later d (d.pick address identity)).1 = .ok .allow := by
  intro after later
  have tables' : placed.OnTables after := onTables_allow tables address identity
  have tables'' : placed.OnTables later := onTables_reached tables' between
  obtain ⟨v, hit, ⟨_, allowed⟩ | ⟨e, _, _, answer, ends, latest⟩⟩ :=
    allow_cases tables (reaches_of_answered answered) address identity
  · rw [denied] at allowed
    cases allowed
  obtain rfl : r = _ := congrArg Decision.retryAfter (denied.symm.trans answer)
  have moved : ∀ d, placed.window? after d (d.pick address identity) = some (v d) := fun d => by
    rw [window?_allow tables, if_pos rfl, (hit d).1]
  have again : ∀ d, (placed.hit later d (d.pick address identity)).1 = .ok .allow ↔
      (v d).deadline ≤ retry ∨ (v d).hits < (placed.policy d).limit := fun d =>
    hit_later_iff tables' (moved d) (fun call member => spared call member d) reach
  -- Where a dimension denied, the wait lasts until its window is over.
  have readmits : ∀ d, (placed.policy d).limit < (v d).hits →
      (placed.hit later d (d.pick address identity)).1 = .ok .allow := fun d beyond => by
    have ended := latest d beyond
    have sum := Instant.add?_eq_some_iff.mp waited
    refine (again d).mpr (.inl ?_)
    rw [Instant.le_iff] at ended ⊢
    omega
  refine ⟨?_, fun d wait denies => readmits d ?_⟩
  · rw [allow_eq_allow_iff tables'']
    constructor
    · intro both d _ u found
      rw [moved d, Option.mem_some] at found
      subst found
      exact (again d).mp (both d)
    · intro room d
      rcases Nat.lt_or_ge (placed.policy d).limit (v d).hits with beyond | within
      · exact readmits d beyond
      · have passed : (placed.hit site d (d.pick address identity)).1 = .ok .allow := by
          rw [(hit d).1, Policy.verdict_of_within within]
        exact (again d).mpr (room d passed (v d) (moved d))
  · rw [(hit d).1, Except.ok.injEq] at denies
    exact Policy.verdict_denies_iff.mp (congrArg Decision.allowed denies)

/-- One call has been made. -/
def onceAsked : Site := Machine.reached tight.serve [(.epoch, .allow "192.0.2.1" "a")] oneTable

/-- From another address than the first time: the address has room for the second attempt. -/
theorem retry_allowed_from_new_address :
    let between : List (Instant × PairCall) :=
      [(.epoch, .allow "192.0.2.3" "b"), (.epoch, .cooldown "192.0.2.2" "a")]
    let retry := Instant.sinceEpoch (.ofSeconds 60)
    tight.OnTables onceAsked ∧
    (∀ d, ∃ decision, (tight.hit onceAsked d (d.pick "192.0.2.2" "a")).1 = .ok decision) ∧
    (tight.allow "192.0.2.2" "a" onceAsked).1 = .deny (.ofSeconds 60) ∧
    (∀ call ∈ between, ∀ d, call.2.hits d (d.pick "192.0.2.2" "a") = false) ∧
    onceAsked.now.add? (.ofSeconds 60) = some retry ∧ tight.Reaches retry ∧
    (tight.allow "192.0.2.2" "a"
      { Machine.reached tight.serve between (tight.allow "192.0.2.2" "a" onceAsked).2
        with now := retry }).1 = .allow := by
  intro between retry
  have tables : tight.OnTables onceAsked := onTables_reached fresh_oneTable.onTables _
  have answered :
      ∀ d, ∃ decision, (tight.hit onceAsked d (d.pick "192.0.2.2" "a")).1 = .ok decision := by
    intro d
    cases d with
    | address => exact ⟨.allow, rfl⟩
    | identity => exact ⟨.deny (.ofSeconds 60), rfl⟩
  have spared : ∀ call ∈ between, ∀ d, call.2.hits d (d.pick "192.0.2.2" "a") = false := by decide
  have reach : tight.Reaches retry := by decide
  refine ⟨tables, answered, rfl, spared, rfl, reach, ?_⟩
  apply (retry_allowed_iff tight onceAsked tables "192.0.2.2" "a" answered
    (.ofSeconds 60) rfl between spared retry rfl reach).1.mpr
  intro d passed v found
  cases d with
  | address =>
      obtain rfl : ⟨.sinceEpoch (.ofSeconds 3600), 1⟩ = v := Option.some.inj found
      exact .inr (by decide)
  | identity => cases passed

/-- A wait that a denial names need not be enough, on counters that nothing but earlier calls has
    filled. -/
theorem wait_not_enough :
    ¬ ∀ (placed : PlacedLimiter) (start : Site), placed.Fresh start →
      ∀ (before : List (Instant × PairCall)) (now : Instant) (address identity : String) (r : Span),
      let site := { Machine.reached placed.serve before start with now }
      (∀ d, ∃ decision, (placed.hit site d (d.pick address identity)).1 = .ok decision) →
      (placed.allow address identity site).1 = .deny r →
      ∀ between : List (Instant × PairCall),
      (∀ call ∈ between, ∀ d, call.2.hits d (d.pick address identity) = false) →
      ∀ retry, now.add? r = some retry → placed.Reaches retry →
      (placed.allow address identity
        { Machine.reached placed.serve between (placed.allow address identity site).2
          with now := retry }).1 = .allow := by
  intro enough
  have answered : ∀ d, ∃ decision,
      (tight.hit
        { Machine.reached tight.serve [(.epoch, .allow "192.0.2.1" "a")] oneTable
          with now := .epoch } d (d.pick "192.0.2.1" "a")).1 = .ok decision := by
    intro d
    cases d with
    | address => exact ⟨.allow, rfl⟩
    | identity => exact ⟨.deny (.ofSeconds 60), rfl⟩
  have allowed :=
    enough tight oneTable fresh_oneTable [(.epoch, .allow "192.0.2.1" "a")] .epoch "192.0.2.1" "a"
      (.ofSeconds 60) answered rfl [] (by simp) (.sinceEpoch (.ofSeconds 60)) rfl (by decide)
  have denied :
      (tight.allow "192.0.2.1" "a"
        { Machine.reached tight.serve []
            (tight.allow "192.0.2.1" "a"
              { Machine.reached tight.serve [(.epoch, .allow "192.0.2.1" "a")] oneTable
                with now := .epoch }).2
          with now := .sinceEpoch (.ofSeconds 60) }).1 = .deny (.ofSeconds 3540) := rfl
  rw [denied] at allowed
  cases allowed

end PlacedLimiter

end LinkGuard
