import Mathlib.Tactic.Choose
import LinkGuard.Proofs.Limiter.Pair
import LinkGuard.Proofs.Limiter.Settled
import LinkGuard.Proofs.Run

/-! # Runs of a pair of limiters on tables

A run is a list of calls, each at the instant that the clock shows then. For one name in one
dimension a call is a hit or nothing at all. While the ends of new windows lie inside the calendar
no store fails, and a denial says of both dimensions where their windows end.
-/

namespace LinkGuard

inductive PairCall where
  | allow (address identity : String)
  | cooldown (address identity : String)

inductive PairAnswer where
  | decision (decision : Decision)
  | wait (wait : Span)
deriving DecidableEq

/-- Whether a call counts a hit of a name. -/
def PairCall.hits (d : Dimension) (name : String) : PairCall → Bool
  | allow address identity => d.pick address identity = name
  | cooldown _ _ => false

namespace PlacedLimiter

def serve (placed : PlacedLimiter) : Machine (Instant × PairCall) Site PairAnswer
  | (now, .allow address identity), site =>
    let (decision, site) := placed.allow address identity { site with now }
    (.decision decision, site)
  | (now, .cooldown address identity), site =>
    let (wait, site) := placed.cooldown address identity { site with now }
    (.wait wait, site)

/-- The stores are tables without a counter in them. -/
def Fresh (placed : PlacedLimiter) (site : Site) : Prop :=
  ∀ d, site.table? (placed.place d) = some .empty

/-- A window that opens at `now` ends inside the calendar, in either dimension. -/
def Reaches (placed : PlacedLimiter) (now : Instant) : Prop :=
  ∀ d, (now.add? (placed.policy d).window).isSome

instance (placed : PlacedLimiter) (now : Instant) : Decidable (placed.Reaches now) :=
  inferInstanceAs (Decidable (∀ d, (now.add? (placed.policy d).window).isSome))

variable {placed : PlacedLimiter} {site : Site} {address identity name : String} {d : Dimension}

theorem Fresh.onTables (fresh : placed.Fresh site) : placed.OnTables site :=
  fun d => Option.isSome_of_eq_some (fresh d)

theorem Fresh.window? (fresh : placed.Fresh site) (d : Dimension) (name : String) :
    placed.window? site d name = none := by
  rw [PlacedLimiter.window?, Site.window?, fresh d]
  rfl

theorem cooldown_site (tables : placed.OnTables site) (address identity : String) :
    (placed.cooldown address identity site).2 = site := by
  have first : site.HasTable placed.addressPlace := tables .address
  have second : site.HasTable placed.identityPlace := tables .identity
  simp only [cooldown, PairLimiter.cooldown, turns_eq_nil tables, Plan.runBoth,
    Policy.cooldown_of_table first, Policy.cooldown_of_table second]

theorem onTables_serve (tables : placed.OnTables site) (now : Instant) (call : PairCall) :
    placed.OnTables (placed.serve (now, call) site).2 := by
  have tables : placed.OnTables { site with now } := tables
  cases call with
  | allow address identity => exact onTables_allow tables address identity
  | cooldown address identity =>
      simp only [serve, cooldown_site tables]
      exact tables

theorem window?_serve (tables : placed.OnTables site) (now : Instant) (call : PairCall)
    (d : Dimension) (name : String) :
    placed.window? (placed.serve (now, call) site).2 d name =
      if call.hits d name then ((placed.policy d).hit now (placed.window? site d name)).2
      else placed.window? site d name := by
  have tables : placed.OnTables { site with now } := tables
  cases call with
  | allow address identity =>
      simp only [PairCall.hits, decide_eq_true_eq]
      exact window?_allow tables address identity d name
  | cooldown address identity =>
      simp only [serve, cooldown_site tables, PairCall.hits, Bool.false_eq_true, if_false]
      rfl

theorem onTables_reached (tables : placed.OnTables site) (calls : List (Instant × PairCall)) :
    placed.OnTables (Machine.reached placed.serve calls site) :=
  Machine.reached_keeps placed.serve (P := placed.OnTables) calls
    (fun call _ _ tables => onTables_serve tables call.1 call.2) tables

theorem reached_keeps {P : Site → Prop} {calls : List (Instant × PairCall)}
    (tables : placed.OnTables site)
    (keeps : ∀ call ∈ calls, ∀ site, placed.OnTables site → P site → P (placed.serve call site).2)
    (start : P site) :
    P (Machine.reached placed.serve calls site) := by
  have both := Machine.reached_keeps placed.serve
    (P := fun site => placed.OnTables site ∧ P site) calls
    (fun call member site kept =>
      ⟨onTables_serve kept.1 call.1 call.2, keeps call member site kept.1 kept.2⟩)
    ⟨tables, start⟩
  exact both.2

theorem window?_reached_of_spared (tables : placed.OnTables site)
    {calls : List (Instant × PairCall)} (spared : ∀ call ∈ calls, call.2.hits d name = false) :
    placed.window? (Machine.reached placed.serve calls site) d name =
      placed.window? site d name := by
  induction calls generalizing site with
  | nil => rfl
  | cons call rest ih =>
      have kept := window?_serve tables call.1 call.2 d name
      rw [spared call List.mem_cons_self, if_neg Bool.false_ne_true] at kept
      rw [Machine.reached, ih (onTables_serve tables _ _) fun later member =>
        spared later (List.mem_cons_of_mem _ member)]
      exact kept

/-- On tables only a window without an end fails. -/
theorem reaches_of_answered {name : Dimension → String}
    (answered : ∀ d, ∃ decision, (placed.hit site d (name d)).1 = .ok decision) :
    placed.Reaches site.now := by
  intro d
  obtain ⟨decision, answer⟩ := answered d
  cases ends : site.now.add? (placed.policy d).window with
  | some deadline => rfl
  | none =>
      rw [hit, Policy.hit_of_no_end ends] at answer
      cases answer

theorem hit_of_reaches (reach : placed.Reaches site.now) (d : Dimension) (name : String) :
    ∃ v, placed.hit site d name = (.ok ((placed.policy d).verdict site.now v), some v) ∧
      site.now < v.deadline := by
  obtain ⟨deadline, ends⟩ := Option.isSome_iff_exists.mp (reach d)
  have future := Instant.lt_of_add? ends (placed.policy d).window_pos
  exact ⟨_, Policy.hit_of_end ends _, Window.lt_deadline_next future _⟩

/-- A call that meets no failure, told by the windows its hits fell into: it goes through if both
    have room, and otherwise the wait ends with one that has none, and not before the other one that
    has none. -/
theorem allow_cases (tables : placed.OnTables site) (reach : placed.Reaches site.now)
    (address identity : String) :
    ∃ v : Dimension → Window,
      (∀ d, placed.hit site d (d.pick address identity) =
        (.ok ((placed.policy d).verdict site.now (v d)), some (v d)) ∧ site.now < (v d).deadline) ∧
      ((∀ d, (v d).hits ≤ (placed.policy d).limit) ∧
        (placed.allow address identity site).1 = .allow ∨
      ∃ e r, (placed.policy e).limit < (v e).hits ∧
        (placed.allow address identity site).1 = .deny r ∧
        (v e).deadline.nanos = site.now.nanos + r.nanos ∧
        ∀ d, (placed.policy d).limit < (v d).hits → (v d).deadline ≤ (v e).deadline) := by
  choose v hit running using fun d => hit_of_reaches reach d (d.pick address identity)
  have answered : ∀ d, (placed.hit site d (d.pick address identity)).1 =
      .ok ((placed.policy d).verdict site.now (v d)) := fun d => by rw [hit d]
  have answer := allow_answer tables address identity
  refine ⟨v, fun d => ⟨hit d, running d⟩, ?_⟩
  rcases placed.limiter.settle_cases answered (fun _ => Policy.verdict_of_allowed) with
    ⟨all, settled⟩ | ⟨e, denies, settled, most⟩
  · refine .inl ⟨fun d => Nat.not_lt.mp fun beyond => ?_, answer.trans settled⟩
    have none := all d
    rw [Policy.verdict_denies_iff.mpr beyond] at none
    cases none
  · have beyond := Policy.verdict_denies_iff.mp denies
    have ends := Policy.deadline_of_beyond beyond (running e)
    refine .inr ⟨e, _, beyond, answer.trans settled, ends, fun d beyond => ?_⟩
    have ends' := Policy.deadline_of_beyond beyond (running d)
    have shorter := most d
    rw [Span.le_iff] at shorter
    rw [Instant.le_iff]
    omega

theorem allow_eq_allow_iff (tables : placed.OnTables site) (address identity : String) :
    (placed.allow address identity site).1 = .allow ↔
      ∀ d, (placed.hit site d (d.pick address identity)).1 = .ok .allow := by
  rw [allow_answer tables]
  exact placed.limiter.settle_eq_allow_iff
    (fun d => (placed.hit site d (d.pick address identity)).1)
    fun _ _ => allow_of_hit_allowed

theorem minute_pos : Span.zero < .ofSeconds 60 := by decide

theorem minute_le_longestWindow : Span.ofSeconds 60 ≤ longestWindow := by decide

/-- Two calls an hour from one address and one a minute for one identity, counted in one table. -/
def tight : PlacedLimiter :=
  ⟨⟨⟨2, .ofSeconds 3600, by decide, by decide, by decide⟩,
    ⟨1, .ofSeconds 60, Nat.one_pos, minute_pos, minute_le_longestWindow⟩, .zero⟩, 0, 0⟩

def oneTable : Site := ((Site.start .epoch).add (.table .empty)).2

theorem fresh_oneTable : tight.Fresh oneTable := by
  intro d
  cases d <;> rfl

end PlacedLimiter

end LinkGuard
