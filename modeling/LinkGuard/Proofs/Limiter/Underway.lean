import LinkGuard.Proofs.Limiter.Mirror
import LinkGuard.Proofs.Limiter.Outline
import LinkGuard.Proofs.Limiter.Stages
import LinkGuard.Proofs.Site.Troubled

/-! # A call under way on a server in trouble

Commands to a server may be complained about, answered with nothing or not answered at all. A call
that meets trouble is denied, in whatever part it was carried out. A call that goes through has
counted one hit in each dimension and found it within the limit.
-/

namespace LinkGuard

/-- The plan has yet to count. -/
def Plan.pending {α : Type} : Plan α → Bool
  | ask (.increment _ _) _ => true
  | _ => false

theorem Policy.pending_afterHit (policy : Policy) (key : String) (hit : Hit) :
    (policy.afterHit key hit).pending = false := by
  rw [Policy.afterHit]
  split <;> rfl

namespace Dimension

/-- How many dimensions there are of a kind. -/
def count (p : Dimension → Bool) : Int := (p address).toNat + (p identity).toNat

variable {α : Type} {plans : Dimension → Plan α} {d : Dimension} {plan : Plan α}

theorem one_le_count {p : Dimension → Bool} {d : Dimension} (holds : p d) : 1 ≤ count p := by
  cases d with
  | address =>
      rw [count, holds]
      exact Int.le_add_of_nonneg_right (Int.natCast_nonneg _)
  | identity =>
      rw [count, holds]
      exact Int.le_add_of_nonneg_left (Int.natCast_nonneg _)

theorem count_pending_update (before : (plans d).pending) (after : plan.pending = false)
    (p : Dimension → Bool) :
    count (fun e => p e && (Function.update plans d plan e).pending) + (if p d then 1 else 0) =
      count fun e => p e && (plans e).pending := by
  cases d with
  | address =>
      rw [count, count, Function.update_self, Function.update_of_ne (by decide), before, after]
      cases p address <;> simp [Int.add_comm]
  | identity =>
      rw [count, count, Function.update_self, Function.update_of_ne (by decide), before, after]
      cases p identity <;> simp

theorem count_pending_update_of_not (before : (plans d).pending = false)
    (after : plan.pending = false) (p : Dimension → Bool) :
    count (fun e => p e && (Function.update plans d plan e).pending) =
      count fun e => p e && (plans e).pending := by
  have same : ∀ e, (Function.update plans d plan e).pending = (plans e).pending := by
    intro e
    by_cases here : e = d
    · subst here
      rw [Function.update_self, before, after]
    · rw [Function.update_of_ne here]
  simp only [same]

end Dimension

namespace PlacedLimiter

variable {placed : PlacedLimiter} {stores : Dimension → Remote.Store} {site s : Site}
  {turns : List Turn} {address identity : String}

/-- Both limiters sit on the server, on one store or on two, and nothing is laid down for it but
    trouble. -/
structure OnServer (placed : PlacedLimiter) (stores : Dimension → Remote.Store) (site : Site) :
    Prop where
  here (d : Dimension) : ∃ silent, site.RemoteAt (placed.place d) (stores d) silent
  troubled : site.server.Troubled
  sound : Remote.Sound site.server.rows

theorem OnServer.leads (on : placed.OnServer stores site) (leads : site.Leads s) :
    placed.OnServer stores s := by
  refine ⟨fun d => ?_, leads.troubled, leads.sound⟩
  obtain ⟨silent, here⟩ := on.here d
  obtain ⟨silent', here', _⟩ := leads.kept _ _ _ here
  exact ⟨silent', here'⟩

/-- The name of the row that a name is counted under. -/
def rowOf (stores : Dimension → Remote.Store) (d : Dimension) (name : String) : String :=
  Remote.rowName (stores d).space (d.key name)

/-- How many of its two hits a call counts in a row. -/
def share (stores : Dimension → Remote.Store) (address identity row : String) : Int :=
  Dimension.count fun d => rowOf stores d (d.pick address identity) = row

def Heard (placed : PlacedLimiter) (stores : Dimension → Remote.Store) (site : Site)
    (d : Dimension) : Prop :=
  site.RemoteAt (placed.place d) (stores d) false

/-- One more hit of a dimension is within its limit. -/
def Fits (placed : PlacedLimiter) (stores : Dimension → Remote.Store)
    (address identity : String) (site : Site) (d : Dimension) : Prop :=
  Remote.hits site.server.rows (rowOf stores d (d.pick address identity)) + 1 ≤
    (placed.limiter.policy d).limit

theorem one_le_share (stores : Dimension → Remote.Store) (address identity : String)
    (d : Dimension) :
    1 ≤ share stores address identity (rowOf stores d (d.pick address identity)) :=
  Dimension.one_le_count (p := fun e => rowOf stores e (e.pick address identity) = _)
    (decide_eq_true rfl)

/-- How a call that began at `site` stands at `s`: unless a command has failed, no trouble was met,
    and the rows have counted the hits that are not pending any more. -/
structure Underway (placed : PlacedLimiter) (stores : Dimension → Remote.Store)
    (address identity : String) (site : Site)
    (plans : Dimension → Plan (Except StoreError Decision)) (s : Site) : Prop where
  leads : site.Leads s
  stage (d : Dimension) : (placed.limiter.policy d).Stage (d.key (d.pick address identity))
    (placed.Heard stores site d) (placed.Fits stores address identity site d) (plans d)
  unhurt : (∀ d e, plans d ≠ .done (.error e)) → s.server.faults = site.server.faults ∧
    ∀ row, Remote.hits s.server.rows row +
        (Dimension.count fun d =>
          rowOf stores d (d.pick address identity) = row && (plans d).pending) =
      Remote.hits site.server.rows row + share stores address identity row

theorem underway_start (on : placed.OnServer stores site) (address identity : String) :
    placed.Underway stores address identity site
      (fun d => (placed.limiter.policy d).allow (d.key (d.pick address identity))) site := by
  refine ⟨.refl on.troubled on.sound, fun d => .fresh, fun _ => ⟨rfl, fun row => ?_⟩⟩
  simp only [Policy.allow_eq_ask, Plan.pending, Bool.and_true, share]

theorem heard_of_leads (on : placed.OnServer stores site) (leads : site.Leads s) {d : Dimension}
    (heard : placed.Heard stores s d) : placed.Heard stores site d := by
  obtain ⟨silent, here⟩ := on.here d
  obtain ⟨silent', here', lasting⟩ := leads.kept _ _ _ here
  have same : silent' = false := by
    simp only [Heard, Site.RemoteAt] at heard here'
    rw [heard, Option.some.injEq, Store.remote.injEq] at here'
    exact here'.2.symm
  cases silent with
  | false => exact here
  | true =>
      rw [same] at lasting
      exact absurd (lasting rfl) Bool.false_ne_true

theorem Underway.update {plans : Dimension → Plan (Except StoreError Decision)} {s' : Site}
    {d : Dimension} {plan : Plan (Except StoreError Decision)}
    (underway : placed.Underway stores address identity site plans s) (leads : s.Leads s')
    (unfailed : ∀ e, plans d ≠ .done (.error e))
    (stage : (placed.limiter.policy d).Stage (d.key (d.pick address identity))
      (placed.Heard stores site d) (placed.Fits stores address identity site d) plan)
    (unhurt : (∀ e, plan ≠ .done (.error e)) →
      s'.server.faults = s.server.faults ∧ plan.pending = false ∧
      ∀ row, Remote.hits s'.server.rows row = Remote.hits s.server.rows row +
        if (plans d).pending ∧ rowOf stores d (d.pick address identity) = row then 1 else 0) :
    placed.Underway stores address identity site (Function.update plans d plan) s' := by
  refine ⟨underway.leads.trans leads, fun e => ?_, fun sound => ?_⟩
  · by_cases here : e = d
    · subst here
      rw [Function.update_self]
      exact stage
    · rw [Function.update_of_ne here]
      exact underway.stage e
  -- If nothing has failed by now, nothing had failed before, and what was counted then is known.
  · have sound' : ∀ e f, plans e ≠ .done (.error f) := by
      intro e f
      by_cases here : e = d
      · subst here
        exact unfailed f
      · have other := sound e f
        rw [Function.update_of_ne here] at other
        exact other
    have own : ∀ f, plan ≠ .done (.error f) := by
      intro f
      have own := sound d f
      rw [Function.update_self] at own
      exact own
    obtain ⟨unused, counted⟩ := underway.unhurt sound'
    obtain ⟨unused', after, counted'⟩ := unhurt own
    refine ⟨unused'.trans unused, fun row => ?_⟩
    have before := counted row
    rw [counted' row]
    cases pending : (plans d).pending with
    | false =>
        rw [Dimension.count_pending_update_of_not pending after]
        simp only [Bool.false_eq_true, false_and, if_false]
        omega
    | true =>
        have spent := Dimension.count_pending_update pending after
          fun e => rowOf stores e (e.pick address identity) = row
        simp only [decide_eq_true_eq] at spent
        simp only [true_and]
        omega

theorem Underway.hit {plans : Dimension → Plan (Except StoreError Decision)} {s' : Site}
    {d : Dimension} {answer : Except StoreError Hit} (on : placed.OnServer stores site)
    (underway : placed.Underway stores address identity site plans s)
    (own : plans d = (placed.limiter.policy d).allow (d.key (d.pick address identity)))
    (leads : s.Leads s')
    (carried : ∀ hit, answer = .ok hit →
      placed.Heard stores s d ∧ s'.server.faults = s.server.faults ∧
      (stores d).onRows (.increment (d.key (d.pick address identity))
        (placed.limiter.policy d).window) s.server.rows = (.ok hit, s'.server.rows)) :
    placed.Underway stores address identity site (Function.update plans d
      ((placed.limiter.policy d).afterCounting (d.key (d.pick address identity)) answer)) s' := by
  have pending : (plans d).pending = true := by
    rw [own]
    rfl
  have unfailed : ∀ e, plans d ≠ .done (.error e) := by
    rw [own]
    nofun
  have sound := underway.leads.sound
  cases answer with
  | error e => exact underway.update leads unfailed (.failed e) fun sound => absurd rfl (sound e)
  | ok hit =>
      obtain ⟨heard, unused, carried⟩ := carried hit rfl
      obtain ⟨counted, count, running⟩ := Remote.Store.hits_of_increment sound carried
      -- The other dimension may have counted in the same row since the call began, but never less
      -- than that.
      have before := underway.leads.grows.hits_le sound (rowOf stores d (d.pick address identity))
      refine underway.update leads unfailed
          (.afterHit running (heard_of_leads on underway.leads heard) ?_) fun _ =>
        ⟨unused, Policy.pending_afterHit _ _ _, fun row => ?_⟩
      · intro within
        simp only [Fits, rowOf] at before ⊢
        omega
      · rw [counted row]
        simp only [pending, true_and, rowOf]

theorem Underway.arm {plans : Dimension → Plan (Except StoreError Decision)} {s' : Site}
    {d : Dimension} {answer : Except StoreError Unit}
    (coarse : .ofMillis 1 ≤ (placed.limiter.policy d).window)
    (underway : placed.Underway stores address identity site plans s)
    (own : plans d = (placed.limiter.policy d).arming (d.key (d.pick address identity)))
    (leads : s.Leads s')
    (line : placed.Heard stores site d) (fits : placed.Fits stores address identity site d)
    (carried : ∀ done, answer = .ok done → s'.server.faults = s.server.faults ∧
      (stores d).onRows (.arm (d.key (d.pick address identity)) (placed.limiter.policy d).window)
        s.server.rows = (.ok done, s'.server.rows)) :
    placed.Underway stores address identity site
      (Function.update plans d (Policy.afterArming answer)) s' := by
  have spent : (plans d).pending = false := by
    rw [own]
    rfl
  have unfailed : ∀ e, plans d ≠ .done (.error e) := by
    rw [own]
    nofun
  cases answer with
  | error e => exact underway.update leads unfailed (.failed e) fun sound => absurd rfl (sound e)
  | ok done =>
      obtain ⟨unused, carried⟩ := carried done rfl
      refine underway.update leads unfailed (.allowed line fits) fun _ =>
        ⟨unused, rfl, fun row => ?_⟩
      rw [Remote.Store.hits_of_arm (Policy.millis_bounds coarse).1 carried]
      simp only [spent, Bool.false_eq_true, false_and, if_false, Int.add_zero]

theorem underway_keeps (on : placed.OnServer stores site)
    (coarse : ∀ d, .ofMillis 1 ≤ (placed.limiter.policy d).window) (address identity : String) :
    Dimension.Keeps (fun d => Site.handler (placed.place d))
      (placed.Underway stores address identity site) := by
  intro d plans command next s own underway
  have on' := on.leads underway.leads
  obtain ⟨silent, here⟩ := on'.here d
  have stage := underway.stage d
  rw [own] at stage
  rcases stage.of_ask with fresh | ⟨arms, line, fits⟩
  · rw [fresh] at own
    rw [Policy.allow_eq_ask] at fresh
    cases fresh
    have leads := Site.handler_leads here on'.troubled on'.sound
      (show (Command.increment (d.key (d.pick address identity))
        (placed.limiter.policy d).window).Coarse from trivial)
    refine underway.hit on own leads fun hit answered => ?_
    obtain ⟨rfl, unused, carried⟩ := Site.handler_eq_ok here on'.troubled on'.sound answered
    exact ⟨here, unused, carried⟩
  · rw [arms] at own
    cases arms
    have leads := Site.handler_leads here on'.troubled on'.sound
      (show (Command.arm (d.key (d.pick address identity)) (placed.limiter.policy d).window).Coarse
        from (Policy.millis_bounds (coarse d)).1)
    refine underway.arm (coarse d) own leads line fits fun done answered => ?_
    exact (Site.handler_eq_ok here on'.troubled on'.sound answered).2

theorem allow_underway (on : placed.OnServer stores site)
    (coarse : ∀ d, .ofMillis 1 ≤ (placed.limiter.policy d).window) (turns : List Turn)
    (address identity : String) :
    ∃ answers : Dimension → Except StoreError Decision,
      (placed.allowIn turns address identity site).1 =
        placed.limiter.settle (answers .address) (answers .identity) ∧
      placed.Underway stores address identity site (fun d => .done (answers d))
        (placed.allowIn turns address identity site).2 :=
  placed.limiter.allow_keeps (underway_keeps on coarse address identity) turns address identity
    (underway_start on address identity)

theorem allow_leads (on : placed.OnServer stores site)
    (coarse : ∀ d, .ofMillis 1 ≤ (placed.limiter.policy d).window) (turns : List Turn)
    (address identity : String) :
    site.Leads (placed.allowIn turns address identity site).2 := by
  obtain ⟨_, _, underway⟩ := allow_underway on coarse turns address identity
  exact underway.leads

/-- Something laid down was met in the course of the call, or the line of a dimension was silent
    before. -/
def Struck (placed : PlacedLimiter) (stores : Dimension → Remote.Store) (site after : Site) :
    Prop :=
  after.server.faults ≠ site.server.faults ∨ ∃ d, site.RemoteAt (placed.place d) (stores d) true

theorem allow_of_struck (on : placed.OnServer stores site)
    (coarse : ∀ d, .ofMillis 1 ≤ (placed.limiter.policy d).window)
    (struck : placed.Struck stores site (placed.allowIn turns address identity site).2) :
    (placed.allowIn turns address identity site).1 = .deny placed.limiter.storeErrorCooldown := by
  obtain ⟨answers, decided, underway⟩ := allow_underway on coarse turns address identity
  rw [decided]
  by_cases sound : ∀ d e, answers d ≠ .error e
  · exfalso
    rcases struck with used | ⟨d, silent⟩
    · exact used (underway.unhurt fun d e failed => sound d e (Plan.done.inj failed)).1
    · cases answer : answers d with
      | error e => exact sound d e answer
      | ok decision =>
          have stage := underway.stage d
          rw [answer] at stage
          have heard := stage.of_ok.1
          rw [Heard, Site.RemoteAt] at heard
          rw [Site.RemoteAt] at silent
          rw [heard, Option.some.injEq, Store.remote.injEq] at silent
          exact Bool.false_ne_true silent.2
  · obtain ⟨d, failed⟩ := Classical.not_forall.mp sound
    obtain ⟨e, failed⟩ := Classical.not_forall.mp failed
    exact placed.limiter.settle_of_error (Classical.not_not.mp failed)

theorem hits_of_allowed (on : placed.OnServer stores site)
    (coarse : ∀ d, .ofMillis 1 ≤ (placed.limiter.policy d).window)
    (allowed : (placed.allowIn turns address identity site).1.allowed) :
    (∀ row, Remote.hits (placed.allowIn turns address identity site).2.server.rows row =
      Remote.hits site.server.rows row + share stores address identity row) ∧
    ∀ d, placed.Fits stores address identity site d := by
  obtain ⟨answers, decided, underway⟩ := allow_underway on coarse turns address identity
  rw [decided] at allowed
  choose decisions answer all using placed.limiter.ok_of_settle_allowed allowed
  have sound : ∀ d e, Plan.done (answers d) ≠ .done (.error e) := by
    intro d e
    rw [answer d]
    nofun
  constructor
  · intro row
    have counted := (underway.unhurt sound).2 row
    simpa only [Plan.pending, Bool.and_false, Dimension.count, Bool.toNat_false,
      Int.natCast_zero, Int.add_zero] using counted
  · intro d
    have stage := underway.stage d
    rw [answer d] at stage
    exact stage.of_ok.2 (all d)

end PlacedLimiter

end LinkGuard
