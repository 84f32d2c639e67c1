import LinkGuard.Proofs.Limiter.FailClosed

/-! # The stages of a call

A call counts its hit, and then it is decided or has one more command to give, which arms the key it
has counted under.
-/

namespace LinkGuard.Policy

def afterArming : Except StoreError Unit → Plan (Except StoreError Decision)
  | .error e => .done (.error e)
  | .ok () => .done (.ok .allow)

/-- What is left of a call that has to arm its key. -/
def arming (policy : Policy) (key : String) : Plan (Except StoreError Decision) :=
  .ask (.arm key policy.window) afterArming

/-- What is left of a call whose hit was counted. -/
def afterHit (policy : Policy) (key : String) (hit : Hit) : Plan (Except StoreError Decision) :=
  match policy.judge hit with
  | .settled decision => .done (.ok decision)
  | .armThenAllow => policy.arming key

def afterCounting (policy : Policy) (key : String) :
    Except StoreError Hit → Plan (Except StoreError Decision)
  | .error e => .done (.error e)
  | .ok hit => policy.afterHit key hit

theorem allow_eq_ask (policy : Policy) (key : String) :
    policy.allow key = .ask (.increment key policy.window) (policy.afterCounting key) := by
  rw [allow]
  congr 1
  funext answer
  cases answer with
  | error e => rfl
  | ok hit =>
      simp only [afterCounting, afterHit]
      cases policy.judge hit with
      | settled decision => rfl
      | armThenAllow =>
          refine congrArg (Plan.ask (.arm key policy.window)) (funext fun answer => ?_)
          cases answer <;> rfl

variable {policy : Policy} {key : String} {hit : Hit}

/-- The first hit of a row without an end arms it, and no other hit of a row that is there does. -/
theorem afterHit_cases (policy : Policy) (key : String) {hit : Hit} (running : hit.ttl ≠ .gone) :
    policy.afterHit key hit = policy.arming key ∧ hit.count = 1 ∨
    policy.afterHit key hit = .done (.ok .allow) ∧ hit.count ≤ policy.limit ∨
    ∃ wait, policy.afterHit key hit = .done (.ok (.deny wait)) ∧ policy.limit < hit.count := by
  rw [afterHit]
  by_cases first : hit.count = 1
  · by_cases unarmed : hit.ttl = .unarmed
    · have arms : policy.judge hit = .armThenAllow := by rw [judge, if_pos first, if_pos unarmed]
      rw [arms]
      exact .inl ⟨rfl, first⟩
    · have allows : policy.judge hit = .settled .allow := by
        rw [judge, if_pos first, if_neg unarmed]
      rw [allows]
      exact .inr (.inl ⟨rfl, first ▸ policy.limit_pos⟩)
  · cases judged : policy.judge hit with
    | armThenAllow =>
        rcases judge_arm judged with within | ⟨_, gone⟩
        · rw [judge, if_neg first, if_pos within] at judged
          cases judged
        · exact absurd gone running
    | settled decision =>
        rcases judge_settled judged with ⟨rfl, within⟩ | ⟨wait, rfl, beyond, _⟩
        · exact .inr (.inl ⟨rfl, within⟩)
        · exact .inr (.inr ⟨wait, rfl, beyond⟩)

theorem allow_ne_arming (policy : Policy) (key other : String) :
    policy.allow other ≠ policy.arming key := by
  intro same
  cases same

theorem arming_inj {other : String} : policy.arming other = policy.arming key ↔ other = key := by
  constructor
  · intro same
    cases same
    rfl
  · rintro rfl
    rfl

theorem afterHit_ne_arming {other : String} (running : hit.ttl ≠ .gone) (apart : other ≠ key) :
    policy.afterHit other hit ≠ policy.arming key := by
  intro arming
  rcases policy.afterHit_cases other running with ⟨arms, _⟩ | ⟨allows, _⟩ | ⟨_, denies, _⟩
  · exact apart (arming_inj.mp (arms.symm.trans arming))
  · rw [allows] at arming
    cases arming
  · rw [denies] at arming
    cases arming

/-- Where a call may stand: what it needs in order to get past its hit is `room`, and that its line
    was `heard`. -/
inductive Stage (policy : Policy) (key : String) (heard room : Prop) :
    Plan (Except StoreError Decision) → Prop where
  | fresh : Stage policy key heard room (policy.allow key)
  | arming (line : heard) (fits : room) : Stage policy key heard room (policy.arming key)
  | allowed (line : heard) (fits : room) : Stage policy key heard room (.done (.ok .allow))
  | denied (line : heard) (wait : Span) : Stage policy key heard room (.done (.ok (.deny wait)))
  | failed (e : StoreError) : Stage policy key heard room (.done (.error e))

variable {heard room : Prop}

theorem Stage.of_ask {command : Command}
    {next : Except StoreError command.Answer → Plan (Except StoreError Decision)}
    (stage : policy.Stage key heard room (.ask command next)) :
    .ask command next = policy.allow key ∨ .ask command next = policy.arming key ∧
    heard ∧ room := by
  generalize asked : Plan.ask command next = plan at stage
  cases stage with
  | fresh => exact .inl rfl
  | arming line fits => exact .inr ⟨rfl, line, fits⟩
  | allowed | denied | failed => cases asked

theorem Stage.of_ok {decision : Decision}
    (stage : policy.Stage key heard room (.done (.ok decision))) :
    heard ∧ (decision.allowed → room) := by
  generalize decided : Plan.done (Except.ok decision) = plan at stage
  cases stage with
  | fresh | arming | failed => cases decided
  | allowed line fits =>
      cases decided
      exact ⟨line, fun _ => fits⟩
  | denied line wait =>
      cases decided
      exact ⟨line, nofun⟩

theorem Stage.afterHit (running : hit.ttl ≠ .gone) (line : heard)
    (fits : hit.count ≤ policy.limit → room) :
    policy.Stage key heard room (policy.afterHit key hit) := by
  rcases policy.afterHit_cases key running with ⟨arms, first⟩ | ⟨allows, within⟩ | ⟨wait, denies, _⟩
  · rw [arms]
    exact .arming line (fits (first ▸ policy.limit_pos))
  · rw [allows]
    exact .allowed line (fits within)
  · rw [denies]
    exact .denied line wait

end LinkGuard.Policy
