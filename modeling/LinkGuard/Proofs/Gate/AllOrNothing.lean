import LinkGuard.Counter.Script
import LinkGuard.Proofs.Gate.Lifetime
import LinkGuard.Proofs.Limiter.FailClosed

/-! # All or nothing

A request is refused before any store hears of it, or it takes its part of the quota in both
dimensions. What could keep a token from being minted is looked at first, so no quota is taken for a
token that then cannot be had.
-/

namespace LinkGuard.Gate

variable {gate : Gate} {σ : Type} {left right : Handler σ} {turns : List Turn}
  {now expiresAt later : Instant} {address identity : String} {s : σ} {issued : IssuedToken}

theorem issue_of_carried (carried : Token.carries identity = true)
    (ends : now.add? gate.linkTtl = some expiresAt) :
    ∃ token, gate.issue now identity = .issued ⟨token, expiresAt⟩ := by
  obtain ⟨token, minted⟩ : ∃ token, gate.codec.mint identity expiresAt = .ok token :=
    ⟨_, Token.mint_eq_ok_iff.mpr ⟨carried, rfl⟩⟩
  exact ⟨token, by simp only [issue, ends, minted]⟩

theorem complete_eq_ok_iff (answer : gate.issue now identity = .issued issued) (other : String) :
    gate.complete later issued.token = .ok other ↔
    later < issued.expiresAt.wholeSecond ∧ other = identity := by
  obtain ⟨_, minted⟩ := granted_of_issue answer
  rw [complete, Codec.verify, Token.verify_of_mint minted]
  split
  case isTrue closed =>
    have ended : ¬ later < issued.expiresAt.wholeSecond := Instant.not_lt.mpr closed
    simp [ended]
  case isFalse running =>
    have before : later < issued.expiresAt.wholeSecond :=
      Classical.not_not.mp fun ended => running (Instant.not_lt.mp ended)
    simp [before, eq_comm]

/-- Watching the stores changes nothing, and what passes is what passes in one evaluation of the
    limiter. -/
theorem request_noting (gate : Gate) (left right : Handler σ) (turns : List Turn) (now : Instant)
    (address : String) (s : σ) (carried : Token.carries identity = true) :
    let asked := gate.request left right turns now address identity s
    let decision := (gate.limiter.allow left right turns address identity s).1
    let watched :=
      gate.request (Handler.noting .address left) (Handler.noting .identity right) turns now
        address identity (s, [])
    let evaluated :=
      gate.limiter.allow (Handler.noting .address left) (Handler.noting .identity right) turns
        address identity (s, [])
    let told (d : Dimension) := (noted d watched.2.2).map Exchange.command
    let key (d : Dimension) := d.key (d.pick address identity)
    (watched.1 = asked.1 ∧ watched.2.1 = asked.2) ∧ evaluated.1 = decision ∧
      watched.2 = evaluated.2 ∧
      ∀ d, told d = [.increment (key d) (gate.limiter.policy d).window] ∨
        told d = [.increment (key d) (gate.limiter.policy d).window,
          .arm (key d) (gate.limiter.policy d).window] := by
  intro asked decision watched evaluated told key
  obtain ⟨notes, _, same, _, yields⟩ :=
    gate.limiter.allow_noting left right turns address identity s []
  have heard : watched = (asked.1, asked.2, notes) := by
    simp only [watched, asked, request_of_carried carried, same, List.nil_append]
  have evaluation : evaluated = (decision, asked.2, notes) := by
    simp only [evaluated, decision, asked, request_of_carried carried, same, List.nil_append]
  simp only [told, heard, evaluation]
  exact ⟨⟨trivial, trivial⟩, trivial, trivial, fun d => Policy.commands_of_yields (yields d)⟩

/-- Whatever the stores do, and whatever state they are in. Watching them changes nothing, and shows
    this. A request is refused on account of its token if and only if the identity has a colon in
    it, and then no store is told anything. Otherwise the stores are told what one evaluation of the
    limiter tells them, which counts each of the two keys up once. A decision that denies is passed
    on with its wait, and one that allows always comes with a token, which proves the identity and
    no other until the second begins in which it expires. -/
theorem request_all_or_nothing (gate : Gate) {σ : Type} (left right : Handler σ) (turns : List Turn)
    (now : Instant) (address identity : String) (s : σ) (inside : (now.add? gate.linkTtl).isSome) :
    let asked := gate.request left right turns now address identity s
    let decision := (gate.limiter.allow left right turns address identity s).1
    let watched :=
      gate.request (Handler.noting .address left) (Handler.noting .identity right) turns now
        address identity (s, [])
    let evaluated :=
      gate.limiter.allow (Handler.noting .address left) (Handler.noting .identity right) turns
        address identity (s, [])
    let told (d : Dimension) := (noted d watched.2.2).map Exchange.command
    let key (d : Dimension) := d.key (d.pick address identity)
    (watched.1 = asked.1 ∧ watched.2.1 = asked.2) ∧
    ((∃ e, asked.1 = .refused (.token e)) ↔ ':' ∈ identity.toList) ∧
    (':' ∈ identity.toList → asked = (.refused (.token .malformedPayload), s) ∧ watched.2.2 = []) ∧
    (':' ∉ identity.toList →
      (evaluated.1 = decision ∧ watched.2 = evaluated.2 ∧
        ∀ d, told d = [.increment (key d) (gate.limiter.policy d).window] ∨
          told d = [.increment (key d) (gate.limiter.policy d).window,
            .arm (key d) (gate.limiter.policy d).window]) ∧
      (∀ wait, asked.1 = .refused (.throttled wait) ↔
        decision.allowed = false ∧ decision.retryAfter = wait) ∧
      (decision.allowed → ∃ issued, asked.1 = .issued issued ∧
        now.add? gate.linkTtl = some issued.expiresAt ∧
        ∀ later other, gate.complete later issued.token = .ok other ↔
          later < issued.expiresAt.wholeSecond ∧ other = identity)) := by
  intro asked decision watched evaluated told key
  by_cases odd : ':' ∈ identity.toList
  · have refused : Token.carries identity = false :=
      Bool.eq_false_iff.mpr fun carried => Token.carries_iff.mp carried odd
    have answered : asked = (.refused (.token .malformedPayload), s) :=
      request_of_not_carried refused
    have unheard : watched = (.refused (.token .malformedPayload), s, []) :=
      request_of_not_carried refused
    rw [answered, unheard]
    exact ⟨⟨rfl, rfl⟩, ⟨fun _ => odd, fun _ => ⟨_, rfl⟩⟩, fun _ => ⟨rfl, rfl⟩,
      fun plain => absurd odd plain⟩
  · have carried : Token.carries identity = true := Token.carries_iff.mpr odd
    obtain ⟨expiresAt, ends⟩ := Option.isSome_iff_exists.mp inside
    obtain ⟨token, issues⟩ := issue_of_carried carried ends
    obtain ⟨unmoved, once⟩ := request_noting gate left right turns now address s carried
    have answered : asked.1 = if decision.allowed then .issued ⟨token, expiresAt⟩
        else .refused (.throttled decision.retryAfter) := by
      rw [← issues]
      exact congrArg Prod.fst (request_of_carried carried)
    refine ⟨unmoved, ⟨?_, fun colon => absurd colon odd⟩, fun colon => absurd colon odd,
      fun _ => ⟨once, ?_, ?_⟩⟩
    · rintro ⟨e, refused⟩
      rw [answered] at refused
      split at refused <;> cases refused
    · intro wait
      rw [answered]
      cases decision.allowed <;> simp
    · intro allowed
      rw [answered, if_pos allowed]
      exact ⟨_, rfl, ends, fun later other => complete_eq_ok_iff issues other⟩

/-- The address is beyond its limit in a window that is over. Its key is armed again, and the token
    is issued. -/
theorem request_all_or_nothing_of_three_commands :
    let script : Script := ⟨[.ok ⟨2, .gone⟩, .ok ⟨1, .live (.ofSeconds 60)⟩], [.ok ()], [], []⟩
    let asked :=
      brief.request Script.handle Script.handle (Turn.alternating 2) .epoch "192.0.2.1" "a" script
    (Instant.epoch.add? brief.linkTtl).isSome ∧
    asked.2.commands =
      [.increment "ip:192.0.2.1" (.ofSeconds 60), .increment "email:a" (.ofSeconds 60),
        .arm "ip:192.0.2.1" (.ofSeconds 60)] ∧
    ∃ issued, asked.1 = .issued issued ∧ issued.expiresAt = .sinceEpoch (.ofMillis 1500) ∧
      ∀ later other, brief.complete later issued.token = .ok other ↔
        later < issued.expiresAt.wholeSecond ∧ other = "a" := by
  intro script asked
  have inside : (Instant.epoch.add? brief.linkTtl).isSome := rfl
  obtain ⟨_, _, _, requested⟩ :=
    request_all_or_nothing brief Script.handle Script.handle (Turn.alternating 2) .epoch
      "192.0.2.1" "a" script inside
  obtain ⟨_, _, issues⟩ := requested (by decide)
  obtain ⟨issued, answer, granted, proves⟩ := issues rfl
  exact ⟨inside, rfl, issued, answer, (Option.some.inj granted).symm, proves⟩

end LinkGuard.Gate
