import LinkGuard.Proofs.Site.Tables

/-! # A pair of limiters on tables

Each call hits one window in each dimension, and the two hits pass each other by: the keys of the
dimensions differ, so it makes no difference whether the two limiters sit on one table or on two.
-/

namespace LinkGuard

def Dimension.pick (address identity : String) : Dimension → String
  | .address => address
  | .identity => identity

namespace PlacedLimiter

def policy (placed : PlacedLimiter) : Dimension → Policy
  | .address => placed.limiter.address
  | .identity => placed.limiter.identity

def place (placed : PlacedLimiter) : Dimension → Nat
  | .address => placed.addressPlace
  | .identity => placed.identityPlace

/-- Both limiters sit on tables, on one or on two. -/
def OnTables (placed : PlacedLimiter) (site : Site) : Prop := ∀ d, site.HasTable (placed.place d)

def window? (placed : PlacedLimiter) (site : Site) (d : Dimension) (name : String) :
    Option Window :=
  site.window? (placed.place d) (d.key name)

/-- What a hit of a name is answered at the time the site shows. -/
def hit (placed : PlacedLimiter) (site : Site) (d : Dimension) (name : String) :
    Except StoreError Decision × Option Window :=
  (placed.policy d).hit site.now (placed.window? site d name)

variable {placed : PlacedLimiter} {site : Site}

/-- On tables the address is dealt with to the end before the identity. -/
theorem turns_eq_nil (tables : placed.OnTables site) :
    site.turns placed.addressPlace placed.identityPlace = [] := by
  obtain ⟨_, found⟩ := (tables .address).elim
  have ready : site.waits placed.addressPlace = false := Site.waits_of_table found
  simp only [Site.turns, ready, Bool.false_and, Bool.false_eq_true, if_false]

theorem allow_eq (tables : placed.OnTables site) (address identity : String) :
    let first := (placed.limiter.addressPlan address).run (Site.handler placed.addressPlace) site
    let second :=
      (placed.limiter.identityPlan identity).run (Site.handler placed.identityPlace) first.2
    placed.allow address identity site = (placed.limiter.settle first.1 second.1, second.2) := by
  simp only [allow, allowIn, PairLimiter.allow, turns_eq_nil tables, Plan.runBoth]

theorem hasTable_between (tables : placed.OnTables site) (address : String) (d : Dimension) :
    Site.HasTable
      ((placed.limiter.addressPlan address).run (Site.handler placed.addressPlace) site).2
      (placed.place d) :=
  (Site.hasTable_run (tables .address) _).mpr (tables d)

theorem allow_answer (tables : placed.OnTables site) (address identity : String) :
    (placed.allow address identity site).1 =
      placed.limiter.settle (placed.hit site .address address).1
        (placed.hit site .identity identity).1 := by
  have first : site.HasTable placed.addressPlace := tables .address
  have second : Site.HasTable _ placed.identityPlace := hasTable_between tables address .identity
  have apart : ¬ (placed.addressPlace = placed.identityPlace ∧
      Dimension.address.key address = Dimension.identity.key identity) := by
    simp [Dimension.key_eq_iff]
  rw [allow_eq tables]
  simp only [PairLimiter.addressPlan, PairLimiter.identityPlan] at second ⊢
  rw [Policy.allow_answer_of_table first, Policy.allow_answer_of_table second, Site.now_run first,
    Policy.window?_allow_of_table first, if_neg apart]
  rfl

theorem window?_allow (tables : placed.OnTables site) (address identity : String) (d : Dimension)
    (name : String) :
    placed.window? (placed.allow address identity site).2 d name =
      if d.pick address identity = name then (placed.hit site d name).2
      else placed.window? site d name := by
  have first : site.HasTable placed.addressPlace := tables .address
  have second : Site.HasTable _ placed.identityPlace := hasTable_between tables address .identity
  rw [allow_eq tables]
  simp only [PairLimiter.addressPlan, PairLimiter.identityPlan, window?] at second ⊢
  rw [Policy.window?_allow_of_table second, Site.now_run first]
  simp only [Policy.window?_allow_of_table first, Dimension.key_eq_iff, reduceCtorEq,
    false_and, and_false, if_false]
  cases d with
  | address =>
      simp only [reduceCtorEq, false_and, and_false, if_false, true_and, place, Dimension.pick]
      by_cases same : address = name
      · subst same
        simp only [if_true]
        rfl
      · simp only [same, if_false]
  | identity =>
      simp only [reduceCtorEq, false_and, and_false, if_false, true_and, place, Dimension.pick]
      by_cases same : identity = name
      · subst same
        simp only [if_true]
        rfl
      · simp only [same, if_false]

theorem onTables_allow (tables : placed.OnTables site) (address identity : String) :
    placed.OnTables (placed.allow address identity site).2 := by
  intro d
  rw [allow_eq tables]
  have second : Site.HasTable _ placed.identityPlace := hasTable_between tables address .identity
  exact (Site.hasTable_run second _).mpr (hasTable_between tables address d)

theorem allow_of_hit_allowed {policy : Policy} {now : Instant} {w : Option Window}
    {decision : Decision} (answer : (policy.hit now w).1 = .ok decision)
    (allowed : decision.allowed) : decision = .allow := by
  cases ends : now.add? policy.window with
  | none =>
      rw [Policy.hit_of_no_end ends] at answer
      cases answer
  | some deadline =>
      rw [Policy.hit_of_end ends] at answer
      obtain rfl := Except.ok.inj answer
      simp only [Policy.verdict] at allowed ⊢
      split at allowed
      case isTrue within => rw [if_pos within]
      case isFalse => cases allowed

theorem hit_of_allowed (tables : placed.OnTables site) {address identity : String}
    (allowed : (placed.allow address identity site).1.allowed) (d : Dimension) :
    (placed.hit site d (d.pick address identity)).1 = .ok .allow := by
  rw [allow_answer tables] at allowed
  cases first : (placed.hit site .address address).1 with
  | error e =>
      rw [first] at allowed
      cases allowed
  | ok a =>
      cases second : (placed.hit site .identity identity).1 with
      | error e =>
          rw [first, second] at allowed
          cases allowed
      | ok b =>
          simp only [first, second, PairLimiter.settle] at allowed
          split at allowed
          case isFalse => cases allowed
          case isTrue both =>
            obtain ⟨left, right⟩ := (Bool.and_eq_true _ _).mp both
            cases d with
            | address => rw [Dimension.pick, first, allow_of_hit_allowed first left]
            | identity => rw [Dimension.pick, second, allow_of_hit_allowed second right]

end PlacedLimiter

def PlacedGate.placed (gate : PlacedGate) : PlacedLimiter :=
  ⟨gate.gate.limiter, gate.addressPlace, gate.identityPlace⟩

end LinkGuard
