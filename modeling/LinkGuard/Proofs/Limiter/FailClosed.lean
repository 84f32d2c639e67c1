import LinkGuard.Proofs.Counter.Exchange
import LinkGuard.Proofs.Limiter.Pair
import LinkGuard.Proofs.Limiter.Settled

/-! # Any two stores

Nothing is assumed here of what the stores answer: counts and lifetimes that no counter has, and
failures at any command, in either dimension. What passes between a limiter and its store then still
fixes the decision, and neither dimension is spared its hit because of the other.
-/

namespace LinkGuard

namespace Policy

def counted (policy : Policy) (key : String) (hit : Hit) : Exchange :=
  ⟨.increment key policy.window, .ok hit⟩

def armed (policy : Policy) (key : String) : Exchange := ⟨.arm key policy.window, .ok ()⟩

/-- The hit is within the limit, or it is beyond it in a window that is over, and the key was armed
    again. -/
def Admits (policy : Policy) (key : String) (told : List Exchange) : Prop :=
  ∃ hit, policy.counted key hit ∈ told ∧
    (hit.count ≤ policy.limit ∨
      policy.limit < hit.count ∧ hit.ttl = .gone ∧ policy.armed key ∈ told)

/-- The hit is beyond the limit, in a window that still runs as long as the wait, or in one that
    will never end, and the wait is a whole window. -/
def Denies (policy : Policy) (key : String) (told : List Exchange) (wait : Span) : Prop :=
  ∃ hit, policy.counted key hit ∈ told ∧ policy.limit < hit.count ∧
    (hit.ttl = .live wait ∨ hit.ttl = .unarmed ∧ wait = policy.window)

variable {policy : Policy} {key : String} {told : List Exchange}
  {result : Except StoreError Decision} {hit : Hit}

theorem judge_settled {decision : Decision} (settled : policy.judge hit = .settled decision) :
    (decision = .allow ∧ hit.count ≤ policy.limit) ∨
    ∃ wait, decision = .deny wait ∧ policy.limit < hit.count ∧
      (hit.ttl = .live wait ∨ hit.ttl = .unarmed ∧ wait = policy.window) := by
  rcases Nat.lt_or_ge policy.limit hit.count with beyond | within
  · rw [judge_of_beyond beyond] at settled
    cases ttl : hit.ttl with
    | live remaining =>
        rw [ttl] at settled
        cases settled
        exact .inr ⟨_, rfl, beyond, .inl rfl⟩
    | gone =>
        rw [ttl] at settled
        cases settled
    | unarmed =>
        rw [ttl] at settled
        cases settled
        exact .inr ⟨_, rfl, beyond, .inr ⟨rfl, rfl⟩⟩
  · rcases judge_of_within within with allows | arms
    · rw [allows] at settled
      cases settled
      exact .inl ⟨rfl, within⟩
    · rw [arms] at settled
      cases settled

theorem judge_arm (arms : policy.judge hit = .armThenAllow) :
    hit.count ≤ policy.limit ∨ policy.limit < hit.count ∧ hit.ttl = .gone := by
  rcases Nat.lt_or_ge policy.limit hit.count with beyond | within
  · rw [judge_of_beyond beyond] at arms
    cases ttl : hit.ttl with
    | gone => exact .inr ⟨beyond, rfl⟩
    | live | unarmed =>
        rw [ttl] at arms
        cases arms
  · exact .inl within

/-- All that can pass between a limiter and its store for one hit. -/
theorem yields_cases (yields : (policy.allow key).Yields told result) :
    (∃ e, told = [⟨.increment key policy.window, .error e⟩] ∧ result = .error e) ∨
    (∃ hit decision, policy.judge hit = .settled decision ∧ told = [policy.counted key hit] ∧
      result = .ok decision) ∨
    ∃ hit, policy.judge hit = .armThenAllow ∧
      ((∃ e, told = [policy.counted key hit, ⟨.arm key policy.window, .error e⟩] ∧
          result = .error e) ∨
        told = [policy.counted key hit, policy.armed key] ∧ result = .ok .allow) := by
  cases yields with
  | @ask _ _ answer rest _ later =>
      cases answer with
      | error e =>
          cases later
          exact .inl ⟨e, rfl, rfl⟩
      | ok hit =>
          simp only at later
          cases judged : policy.judge hit with
          | settled decision =>
              rw [judged] at later
              cases later
              exact .inr (.inl ⟨hit, decision, judged, rfl, rfl⟩)
          | armThenAllow =>
              rw [judged] at later
              refine .inr (.inr ⟨hit, judged, ?_⟩)
              cases later with
              | @ask _ _ answer rest _ last =>
                  cases answer with
                  | error e =>
                      cases last
                      exact .inl ⟨e, rfl, rfl⟩
                  | ok _ =>
                      cases last
                      exact .inr ⟨rfl, rfl⟩

theorem commands_of_yields (yields : (policy.allow key).Yields told result) :
    told.map Exchange.command = [.increment key policy.window] ∨
    told.map Exchange.command = [.increment key policy.window, .arm key policy.window] := by
  rcases yields_cases yields with ⟨_, rfl, _⟩ | ⟨_, _, _, rfl, _⟩ | ⟨_, _, ⟨_, rfl, _⟩ | ⟨rfl, _⟩⟩
  · exact .inl rfl
  · exact .inl rfl
  · exact .inr rfl
  · exact .inr rfl

theorem failed_iff (yields : (policy.allow key).Yields told result) :
    (∃ x ∈ told, x.Failed) ↔ ∃ e, result = .error e := by
  rcases yields_cases yields
    with ⟨e, rfl, rfl⟩ | ⟨_, _, _, rfl, rfl⟩ | ⟨_, _, ⟨e, rfl, rfl⟩ | ⟨rfl, rfl⟩⟩ <;>
    simp [Exchange.Failed, counted, armed]

theorem counted_inj {hit' : Hit} (same : policy.counted key hit = policy.counted key hit') :
    hit = hit' := by
  cases same
  rfl

theorem head_of_counted (yields : (policy.allow key).Yields told result)
    (counted : policy.counted key hit ∈ told) :
    told.head? = some (policy.counted key hit) := by
  rcases yields_cases yields with ⟨_, rfl, _⟩ | ⟨_, _, _, rfl, _⟩ | ⟨_, _, ⟨_, rfl, _⟩ | ⟨rfl, _⟩⟩
  · exact congrArg some (List.mem_singleton.mp counted).symm
  · exact congrArg some (List.mem_singleton.mp counted).symm
  · rcases List.mem_cons.mp counted with same | arming
    · exact congrArg some same.symm
    · cases List.mem_singleton.mp arming
  · rcases List.mem_cons.mp counted with same | arming
    · exact congrArg some same.symm
    · cases List.mem_singleton.mp arming

theorem hit_unique (yields : (policy.allow key).Yields told result) {hit' : Hit}
    (one : policy.counted key hit ∈ told) (other : policy.counted key hit' ∈ told) : hit = hit' :=
  counted_inj (Option.some.inj
    ((head_of_counted yields one).symm.trans (head_of_counted yields other)))

theorem ok_cases {decision : Decision} (yields : (policy.allow key).Yields told (.ok decision)) :
    decision = .allow ∧ policy.Admits key told ∨
    ∃ wait, decision = .deny wait ∧ policy.Denies key told wait := by
  rcases yields_cases yields with ⟨_, _, failed⟩ | ⟨hit, _, judged, rfl, same⟩ |
    ⟨hit, judged, ⟨_, _, failed⟩ | ⟨rfl, same⟩⟩
  · cases failed
  · cases same
    rcases judge_settled judged with ⟨rfl, within⟩ | ⟨wait, rfl, beyond, waits⟩
    · exact .inl ⟨rfl, hit, List.mem_cons_self, .inl within⟩
    · exact .inr ⟨wait, rfl, hit, List.mem_cons_self, beyond, waits⟩
  · cases failed
  · cases same
    refine .inl ⟨rfl, hit, List.mem_cons_self, ?_⟩
    rcases judge_arm judged with within | ⟨beyond, gone⟩
    · exact .inl within
    · exact .inr ⟨beyond, gone, List.mem_cons_of_mem _ List.mem_cons_self⟩

theorem not_admits_and_denies (yields : (policy.allow key).Yields told result) {wait : Span}
    (admits : policy.Admits key told) (denies : policy.Denies key told wait) : False := by
  obtain ⟨hit, counted, room⟩ := admits
  obtain ⟨hit', counted', beyond, waits⟩ := denies
  obtain rfl := hit_unique yields counted counted'
  rcases room with within | ⟨_, gone, _⟩
  · omega
  · rcases waits with live | ⟨unarmed, _⟩
    · rw [gone] at live
      cases live
    · rw [gone] at unarmed
      cases unarmed

theorem Denies.wait_unique (yields : (policy.allow key).Yields told result) {wait wait' : Span}
    (denies : policy.Denies key told wait) (denies' : policy.Denies key told wait') :
    wait = wait' := by
  obtain ⟨hit, counted, _, waits⟩ := denies
  obtain ⟨hit', counted', _, waits'⟩ := denies'
  obtain rfl := hit_unique yields counted counted'
  rcases waits with live | ⟨unarmed, rfl⟩ <;> rcases waits' with live' | ⟨unarmed', rfl⟩
  · rw [live] at live'
    exact Ttl.live.inj live'
  · rw [live] at unarmed'
    cases unarmed'
  · rw [unarmed] at live'
    cases live'
  · rfl

theorem eq_allow_of_allowed {decision : Decision}
    (yields : (policy.allow key).Yields told (.ok decision)) (allowed : decision.allowed) :
    decision = .allow := by
  rcases ok_cases yields with ⟨rfl, _⟩ | ⟨_, rfl, _⟩
  · rfl
  · cases allowed

theorem eq_deny_of_denies {decision : Decision}
    (yields : (policy.allow key).Yields told (.ok decision)) {wait : Span}
    (denies : policy.Denies key told wait) : decision = .deny wait := by
  rcases ok_cases yields with ⟨_, admits⟩ | ⟨_, rfl, denies'⟩
  · exact (not_admits_and_denies yields admits denies).elim
  · rw [denies'.wait_unique yields denies]

theorem ok_of_sound (yields : (policy.allow key).Yields told result)
    (sound : ∀ x ∈ told, ¬ x.Failed) : ∃ decision, result = .ok decision := by
  cases result with
  | ok decision => exact ⟨decision, rfl⟩
  | error e =>
      obtain ⟨x, member, failed⟩ := (failed_iff yields).mpr ⟨e, rfl⟩
      exact absurd failed (sound x member)

theorem allow_iff (yields : (policy.allow key).Yields told result) :
    result = .ok .allow ↔ (∀ x ∈ told, ¬ x.Failed) ∧ policy.Admits key told := by
  constructor
  · rintro rfl
    refine ⟨fun x member failed => ?_, ?_⟩
    · obtain ⟨_, error⟩ := (failed_iff yields).mp ⟨x, member, failed⟩
      cases error
    · rcases ok_cases yields with ⟨_, admits⟩ | ⟨_, denied, _⟩
      · exact admits
      · cases denied
  · rintro ⟨sound, admits⟩
    obtain ⟨decision, rfl⟩ := ok_of_sound yields sound
    rcases ok_cases yields with ⟨rfl, _⟩ | ⟨_, _, denies⟩
    · rfl
    · exact (not_admits_and_denies yields admits denies).elim

end Policy

namespace PairLimiter

variable {σ : Type}

theorem allow_noting (limiter : PairLimiter) (left right : Handler σ) (turns : List Turn)
    (address identity : String) (s : σ) (notes : List (Dimension × Exchange)) :
    ∃ (later : List (Dimension × Exchange)) (answers : Dimension → Except StoreError Decision),
      limiter.allow (Handler.noting .address left) (Handler.noting .identity right) turns
          address identity (s, notes) =
        ((limiter.allow left right turns address identity s).1,
          (limiter.allow left right turns address identity s).2, notes ++ later) ∧
      (limiter.allow left right turns address identity s).1 =
        limiter.settle (answers .address) (answers .identity) ∧
      ∀ d, ((limiter.policy d).allow (d.key (d.pick address identity))).Yields (noted d later)
        (answers d) := by
  have apart : Dimension.address ≠ .identity := by decide
  obtain ⟨later, same, first, second⟩ :=
    Plan.runBoth_noting apart left right turns (limiter.addressPlan address)
      (limiter.identityPlan identity) s notes
  let results := (Plan.runBoth left right turns (limiter.addressPlan address)
    (limiter.identityPlan identity) s).1
  let answers (d : Dimension) : Except StoreError Decision := d.casesOn results.1 results.2
  refine ⟨later, answers, ?_, rfl, Dimension.forall_iff.mpr ⟨first, second⟩⟩
  simp only [allow, same]

/-- Two evaluations in which no command failed, and of which one denies. -/
theorem settle_of_sound {limiter : PairLimiter} {told : Dimension → List Exchange}
    {key : Dimension → String} {answers : Dimension → Except StoreError Decision}
    (yields : ∀ d, ((limiter.policy d).allow (key d)).Yields (told d) (answers d))
    (sound : ∀ d, ∀ x ∈ told d, ¬ x.Failed)
    (denied : limiter.settle (answers .address) (answers .identity) ≠ .allow) :
    ∃ r, limiter.settle (answers .address) (answers .identity) = .deny r ∧
      (∃ d, (limiter.policy d).Denies (key d) (told d) r) ∧
      ∀ d wait, (limiter.policy d).Denies (key d) (told d) wait → wait ≤ r := by
  choose decisions answer using fun d => Policy.ok_of_sound (yields d) (sound d)
  have decided (d : Dimension) :
      ((limiter.policy d).allow (key d)).Yields (told d) (.ok (decisions d)) := answer d ▸ yields d
  rcases limiter.settle_cases answer (fun {d} => Policy.eq_allow_of_allowed (decided d)) with
    ⟨_, allowed⟩ | ⟨e, refused, settled, most⟩
  · exact absurd allowed denied
  · rcases Policy.ok_cases (decided e) with ⟨allows, _⟩ | ⟨r, waits, denies⟩
    · rw [allows] at refused
      cases refused
    · rw [waits] at settled most
      refine ⟨r, settled, ⟨e, denies⟩, fun d wait denies' => ?_⟩
      have shorter := most d
      rw [Policy.eq_deny_of_denies (decided d) denies'] at shorter
      exact shorter

/-- Whatever the two stores do, and in whatever order they are told, watching them changes nothing,
    and shows this. Each is told to count its own key up once, and at most to arm that key after it.
    The call is allowed if and only if no command fails and both dimensions admit it. If any command
    fails, it is denied for the span that is set for that; and otherwise, for the longest wait of
    the dimensions that deny it. -/
theorem fails_closed (limiter : PairLimiter) (left right : Handler σ) (turns : List Turn)
    (address identity : String) (s : σ) :
    let plain := limiter.allow left right turns address identity s
    let watched :=
      limiter.allow (Handler.noting .address left) (Handler.noting .identity right) turns
        address identity (s, [])
    let told (d : Dimension) : List Exchange := noted d watched.2.2
    let key (d : Dimension) : String := d.key (d.pick address identity)
    (watched.1 = plain.1 ∧ watched.2.1 = plain.2) ∧
    (∀ d, (told d).map Exchange.command = [.increment (key d) (limiter.policy d).window] ∨
      (told d).map Exchange.command =
        [.increment (key d) (limiter.policy d).window, .arm (key d) (limiter.policy d).window]) ∧
    (plain.1 = .allow ↔
      ∀ d, (∀ x ∈ told d, ¬ x.Failed) ∧ (limiter.policy d).Admits (key d) (told d)) ∧
    ((∃ d, ∃ x ∈ told d, x.Failed) → plain.1 = .deny limiter.storeErrorCooldown) ∧
    ((∀ d, ∀ x ∈ told d, ¬ x.Failed) → plain.1 ≠ .allow →
      ∃ r, plain.1 = .deny r ∧ (∃ d, (limiter.policy d).Denies (key d) (told d) r) ∧
        ∀ d wait, (limiter.policy d).Denies (key d) (told d) wait → wait ≤ r) := by
  intro plain watched told key
  obtain ⟨later, answers, same, settled, yields⟩ :=
    limiter.allow_noting left right turns address identity s []
  have told_eq : told = fun d => noted d later := by
    simp only [told, watched, same, List.nil_append]
  have decided : plain.1 = limiter.settle (answers .address) (answers .identity) := settled
  have unchanged : watched.1 = plain.1 ∧ watched.2.1 = plain.2 := by
    simp only [watched, same]
    exact ⟨rfl, rfl⟩
  have plainly : ∀ d decision, answers d = .ok decision → decision.allowed → decision = .allow :=
    fun d _ answer => Policy.eq_allow_of_allowed (answer ▸ yields d)
  rw [told_eq, decided]
  refine ⟨decided ▸ unchanged, fun d => Policy.commands_of_yields (yields d), ?_, ?_,
    settle_of_sound yields⟩
  · rw [limiter.settle_eq_allow_iff answers plainly]
    exact forall_congr' fun d => Policy.allow_iff (yields d)
  · rintro ⟨d, failed⟩
    obtain ⟨e, answer⟩ := (Policy.failed_iff (yields d)).mp failed
    exact limiter.settle_of_error answer

end PairLimiter

end LinkGuard
