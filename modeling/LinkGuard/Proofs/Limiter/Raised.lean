import LinkGuard.Proofs.Limiter.PairRun
import Mathlib.Data.List.Forall2

/-! # Raised limits

What a hit makes of a counter does not depend on the limit, only what is said of it does. So a
limiter with higher limits leaves the same tables behind, call by call, and is never worse to a
caller.
-/

namespace LinkGuard

/-- For the caller the second decision is no worse than the first. -/
structure Decision.NoWorse (decision decision' : Decision) : Prop where
  allowed : decision.allowed → decision'.allowed
  shorter : decision'.retryAfter ≤ decision.retryAfter

namespace Decision.NoWorse

theorem refl (decision : Decision) : decision.NoWorse decision := ⟨id, Nat.le_refl _⟩

theorem allow (decision : Decision) : decision.NoWorse .allow := ⟨fun _ => rfl, Nat.zero_le _⟩

theorem deny {wait wait' : Span} (shorter : wait' ≤ wait) :
    (Decision.deny wait).NoWorse (.deny wait') :=
  ⟨nofun, shorter⟩

end Decision.NoWorse

/-- No worse either, and a store that fails one limiter fails the other alike. -/
inductive Policy.NoWorse : Except StoreError Decision → Except StoreError Decision → Prop
  | failed (e : StoreError) : NoWorse (.error e) (.error e)
  | answered {decision decision' : Decision} (better : decision.NoWorse decision') :
      NoWorse (.ok decision) (.ok decision')

inductive PairAnswer.NoWorse : PairAnswer → PairAnswer → Prop
  | decision {decision decision' : Decision} (better : decision.NoWorse decision') :
      NoWorse (.decision decision) (.decision decision')
  | wait (wait : Span) : NoWorse (.wait wait) (.wait wait)

namespace Policy

/-- A policy with the same windows whose limit is not lower. -/
structure RaisesTo (policy raised : Policy) : Prop where
  window : raised.window = policy.window
  limit : policy.limit ≤ raised.limit

namespace RaisesTo

variable {policy raised : Policy}

theorem verdict (raises : policy.RaisesTo raised) (now : Instant) (v : Window) :
    (policy.verdict now v).NoWorse (raised.verdict now v) := by
  rcases Nat.lt_or_ge raised.limit v.hits with beyond | within
  · rw [verdict_of_beyond beyond, verdict_of_beyond (Nat.lt_of_le_of_lt raises.limit beyond)]
    exact .refl _
  · rw [verdict_of_within within]
    exact .allow _

theorem run_of_table (raises : policy.RaisesTo raised) (now : Instant) (key : String)
    (table : Table) :
    Policy.NoWorse ((policy.allow key).run (Table.handle now) table).1
        ((raised.allow key).run (Table.handle now) table).1 ∧
      ((raised.allow key).run (Table.handle now) table).2 =
        ((policy.allow key).run (Table.handle now) table).2 := by
  cases ends : now.add? policy.window with
  | none =>
      have ends' : now.add? raised.window = none := by rw [raises.window, ends]
      rw [allow_run_of_no_end ends, allow_run_of_no_end ends', raises.window]
      exact ⟨.failed _, rfl⟩
  | some deadline =>
      have ends' : now.add? raised.window = some deadline := by rw [raises.window, ends]
      rw [allow_run_of_end ends, allow_run_of_end ends']
      exact ⟨.answered (raises.verdict now _), rfl⟩

theorem run (raises : policy.RaisesTo raised) {site : Site} {place : Nat}
    (has : site.HasTable place) (key : String) :
    Policy.NoWorse ((policy.allow key).run (Site.handler place) site).1
        ((raised.allow key).run (Site.handler place) site).1 ∧
      ((raised.allow key).run (Site.handler place) site).2 =
        ((policy.allow key).run (Site.handler place) site).2 := by
  obtain ⟨table, found⟩ := has.elim
  obtain ⟨better, same⟩ := raises.run_of_table site.now key table
  rw [Site.run_of_table _ found, Site.run_of_table _ found, same]
  exact ⟨better, rfl⟩

theorem cooldown (raises : policy.RaisesTo raised) (key : String) :
    raised.cooldown key = policy.cooldown key := by
  have wait : raised.wait = policy.wait := by
    funext ttl
    cases ttl with
    | live | gone => rfl
    | unarmed => exact raises.window
  simp only [Policy.cooldown, wait]

end RaisesTo

end Policy

namespace PairLimiter

/-- A limiter with the same windows, and the same wait in place of a store without an answer, of
    whose limits none is lower. -/
structure RaisesTo (limiter raised : PairLimiter) : Prop where
  policy (d : Dimension) : (limiter.policy d).RaisesTo (raised.policy d)
  storeErrorCooldown : raised.storeErrorCooldown = limiter.storeErrorCooldown

variable {limiter raised : PairLimiter} {a a' b b' : Except StoreError Decision}

theorem RaisesTo.settle (raises : limiter.RaisesTo raised) (first : Policy.NoWorse a a')
    (second : Policy.NoWorse b b') : (limiter.settle a b).NoWorse (raised.settle a' b') := by
  have same : (Decision.deny limiter.storeErrorCooldown).NoWorse
      (.deny raised.storeErrorCooldown) := by
    rw [raises.storeErrorCooldown]
    exact .refl _
  cases first with
  | failed e => exact same
  | @answered x x' better =>
      cases second with
      | failed e => exact same
      | @answered y y' better' =>
          simp only [PairLimiter.settle, Bool.and_eq_true]
          by_cases both' : x'.allowed ∧ y'.allowed
          · rw [if_pos both']
            exact .allow _
          · have denied : ¬ (x.allowed ∧ y.allowed) :=
              fun both => both' ⟨better.allowed both.1, better'.allowed both.2⟩
            rw [if_neg both', if_neg denied]
            exact .deny (Span.max_le_max better.shorter better'.shorter)

theorem RaisesTo.cooldown (raises : limiter.RaisesTo raised) {σ : Type} (left right : Handler σ)
    (turns : List Turn) (address identity : String) (s : σ) :
    raised.cooldown left right turns address identity s =
      limiter.cooldown left right turns address identity s := by
  have first := (raises.policy .address).cooldown (Dimension.address.key address)
  have second := (raises.policy .identity).cooldown (Dimension.identity.key identity)
  have settled : raised.settleWait = limiter.settleWait := by
    funext a b
    cases a with
    | error => exact raises.storeErrorCooldown
    | ok a =>
        cases b with
        | error => exact raises.storeErrorCooldown
        | ok b => rfl
  simp only [PairLimiter.policy] at first second
  simp only [PairLimiter.cooldown, first, second, settled]

end PairLimiter

namespace PlacedLimiter

/-- The limiter with other policies, on the same stores. -/
def withLimiter (placed : PlacedLimiter) (limiter : PairLimiter) : PlacedLimiter :=
  { placed with limiter }

/-- The site in the middle of a call, when its address has been hit and its identity has not. -/
def amid (placed : PlacedLimiter) (address : String) (site : Site) : Site :=
  ((placed.limiter.addressPlan address).run (Site.handler placed.addressPlace) site).2

variable {placed : PlacedLimiter} {raised : PairLimiter} {site : Site}

/-- A call leaves the same stores behind under raised limits, and its answer is no worse. -/
theorem serve_raised (raises : placed.limiter.RaisesTo raised) (tables : placed.OnTables site)
    (now : Instant) (call : PairCall) :
    (placed.serve (now, call) site).1.NoWorse
      ((placed.withLimiter raised).serve (now, call) site).1 ∧
      ((placed.withLimiter raised).serve (now, call) site).2 =
        (placed.serve (now, call) site).2 := by
  have tables : placed.OnTables { site with now } := tables
  cases call with
  | allow address identity =>
      obtain ⟨better, between⟩ :=
        (raises.policy .address).run (tables .address) (Dimension.address.key address)
      obtain ⟨better', after⟩ :=
        (raises.policy .identity).run (hasTable_between tables address .identity)
          (Dimension.identity.key identity)
      have tables' : (placed.withLimiter raised).OnTables { site with now } := tables
      have eased := allow_eq tables' address identity
      simp only [withLimiter, PairLimiter.addressPlan, PairLimiter.identityPlan] at eased
      simp only [PairLimiter.policy, place] at between
      rw [between] at eased
      simp only [serve, withLimiter, eased, allow_eq tables]
      exact ⟨.decision (raises.settle better better'), after⟩
  | cooldown address identity =>
      simp only [serve, cooldown, withLimiter, raises.cooldown]
      exact ⟨.wait _, trivial⟩

theorem run_raised (raises : placed.limiter.RaisesTo raised) (tables : placed.OnTables site)
    (calls : List (Instant × PairCall)) :
    List.Forall₂ PairAnswer.NoWorse (Machine.answers placed.serve calls site)
        (Machine.answers (placed.withLimiter raised).serve calls site) ∧
      Machine.reached (placed.withLimiter raised).serve calls site =
        Machine.reached placed.serve calls site := by
  induction calls generalizing site with
  | nil => exact ⟨.nil, rfl⟩
  | cons call rest ih =>
      obtain ⟨better, same⟩ := serve_raised raises tables call.1 call.2
      obtain ⟨later, last⟩ := ih (onTables_serve tables call.1 call.2)
      simp only [Machine.answers, Machine.reached, same]
      exact ⟨.cons better later, last⟩

/-- Two runs of the same calls from one state, under the same windows and with limits of which none
    is lower in the second. The stores are the same after every call, and in the middle of the next
    one. Every answer of the second run is no worse than that of the first: what is allowed there is
    allowed here, and no wait is longer. -/
theorem raised_limits_only_help (placed : PlacedLimiter) (raised : PairLimiter)
    (raises : placed.limiter.RaisesTo raised) (site : Site) (tables : placed.OnTables site)
    (calls : List (Instant × PairCall)) :
    let raised := placed.withLimiter raised
    (∀ i, Machine.reached raised.serve (calls.take i) site =
      Machine.reached placed.serve (calls.take i) site) ∧
    (∀ i now address,
      raised.amid address { Machine.reached raised.serve (calls.take i) site with now } =
        placed.amid address { Machine.reached placed.serve (calls.take i) site with now }) ∧
    List.Forall₂ PairAnswer.NoWorse (Machine.answers placed.serve calls site)
      (Machine.answers raised.serve calls site) := by
  have same := fun i => (run_raised raises tables (calls.take i)).2
  refine ⟨same, fun i now address => ?_, (run_raised raises tables calls).1⟩
  have tables' : placed.OnTables { Machine.reached placed.serve (calls.take i) site with now } :=
    onTables_reached tables (calls.take i)
  simp only [same i]
  exact ((raises.policy .address).run (tables' .address) (Dimension.address.key address)).2

/-- One more call an hour from one address than `tight` lets through, and one more a minute for one
    identity. -/
def looser : PairLimiter :=
  ⟨{ tight.limiter.address with limit := 3, limit_pos := by decide },
    { tight.limiter.identity with limit := 2, limit_pos := Nat.two_pos }, .zero⟩

theorem looser_than_tight : tight.limiter.RaisesTo looser :=
  ⟨Dimension.forall_iff.mpr ⟨⟨rfl, by decide⟩, ⟨rfl, by decide⟩⟩, rfl⟩

/-- The second call is let through for once, and the third has to wait a minute in place of an
    hour. -/
theorem raised_limits_only_help_on_three_calls :
    let calls : List (Instant × PairCall) := List.replicate 3 (.epoch, .allow "192.0.2.1" "a")
    tight.limiter.RaisesTo looser ∧ tight.OnTables oneTable ∧
    Machine.answers tight.serve calls oneTable =
      [.decision .allow, .decision (.deny (.ofSeconds 60)), .decision (.deny (.ofSeconds 3600))] ∧
    Machine.answers (tight.withLimiter looser).serve calls oneTable =
      [.decision .allow, .decision .allow, .decision (.deny (.ofSeconds 60))] ∧
    (∀ i, Machine.reached (tight.withLimiter looser).serve (calls.take i) oneTable =
      Machine.reached tight.serve (calls.take i) oneTable) ∧
    (∀ i now address, (tight.withLimiter looser).amid address
        { Machine.reached (tight.withLimiter looser).serve (calls.take i) oneTable with now } =
      tight.amid address { Machine.reached tight.serve (calls.take i) oneTable with now }) ∧
    List.Forall₂ PairAnswer.NoWorse (Machine.answers tight.serve calls oneTable)
      (Machine.answers (tight.withLimiter looser).serve calls oneTable) := by
  intro calls
  exact ⟨looser_than_tight, fresh_oneTable.onTables, rfl, rfl,
    raised_limits_only_help tight looser looser_than_tight oneTable fresh_oneTable.onTables calls⟩

end PlacedLimiter

end LinkGuard
