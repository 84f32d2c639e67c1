import LinkGuard.Counter.Table
import LinkGuard.Gate
import LinkGuard.Proofs.Token.Minted

/-! # How long an issued token lasts

A gate grants a token up to the instant one lifetime after the request. The token itself keeps the
second of that instant only, so it proves the identity until that second begins and is expired from
then on. Where the lifetime does not end on a whole second, what it takes of its last second is
lost.
-/

namespace LinkGuard.Gate

variable {gate : Gate} {σ : Type} {left right : Handler σ} {turns : List Turn} {now : Instant}
  {address identity : String} {s : σ} {issued : IssuedToken}

theorem granted_of_issue (answer : gate.issue now identity = .issued issued) :
    now.add? gate.linkTtl = some issued.expiresAt ∧
      Token.mint gate.codec.secret identity issued.expiresAt = .ok issued.token := by
  simp only [issue] at answer
  split at answer
  case h_1 => cases answer
  case h_2 expiresAt ends =>
    split at answer
    case h_1 token minted =>
      obtain rfl := GateAnswer.issued.inj answer
      exact ⟨ends, minted⟩
    case h_2 => cases answer

theorem request_of_not_carried (odd : Token.carries identity = false) :
    gate.request left right turns now address identity s =
      (.refused (.token .malformedPayload), s) := by
  simp only [request, odd, Bool.false_eq_true, if_false]

theorem request_of_carried (carried : Token.carries identity = true) :
    gate.request left right turns now address identity s =
      (if (gate.limiter.allow left right turns address identity s).1.allowed then
          gate.issue now identity
        else .refused (.throttled
          (gate.limiter.allow left right turns address identity s).1.retryAfter),
        (gate.limiter.allow left right turns address identity s).2) := by
  simp only [request, carried, if_true]
  split <;> rfl

theorem issue_of_request
    (asked : (gate.request left right turns now address identity s).1 = .issued issued) :
    gate.issue now identity = .issued issued := by
  simp only [request] at asked
  split at asked
  case isFalse => cases asked
  case isTrue =>
    split at asked
    case isTrue => exact asked
    case isFalse => cases asked

theorem complete_of_request
    (asked : (gate.request left right turns now address identity s).1 = .issued issued)
    (later : Instant) :
    gate.complete later issued.token =
      if issued.expiresAt.wholeSecond ≤ later then .error .expired else .ok identity := by
  obtain ⟨_, minted⟩ := granted_of_issue (issue_of_request asked)
  exact Token.verify_of_mint minted later

/-- Whatever the limiter and the stores did: a token that is issued was granted for one lifetime. It
    proves the identity up to the second in which the lifetime ends, and is expired from the
    beginning of that second on, which is less than a second before the lifetime is over. -/
theorem issued_token_lasts (gate : Gate) {σ : Type} (left right : Handler σ) (turns : List Turn)
    (now : Instant) (address identity : String) (s : σ) (issued : IssuedToken)
    (asked : (gate.request left right turns now address identity s).1 = .issued issued) :
    now.add? gate.linkTtl = some issued.expiresAt ∧
    (∀ later, later < issued.expiresAt.wholeSecond →
      gate.complete later issued.token = .ok identity) ∧
    (∀ later, issued.expiresAt.wholeSecond ≤ later →
      gate.complete later issued.token = .error .expired) ∧
    issued.expiresAt.wholeSecond ≤ issued.expiresAt ∧
    issued.expiresAt.nanos < issued.expiresAt.wholeSecond.nanos + 1000000000 := by
  obtain ⟨granted, _⟩ := granted_of_issue (issue_of_request asked)
  refine ⟨granted, ?_, ?_, issued.expiresAt.wholeSecond_bounds⟩
  · intro later before
    have running : ¬ issued.expiresAt.wholeSecond ≤ later :=
      fun closed => Instant.not_lt.mpr closed before
    rw [complete_of_request asked, if_neg running]
  · intro later after
    rw [complete_of_request asked, if_pos after]

def oneAMinute : Policy := ⟨1, .ofSeconds 60, by decide, by decide, by decide⟩

/-- A gate whose links last a second and a half. -/
def brief : Gate :=
  ⟨⟨[0x6b], by decide⟩, ⟨oneAMinute, oneAMinute, .zero⟩, .ofMillis 1500, by decide, by decide⟩

theorem brief_issues :
    ∃ issued,
      (brief.request (Table.handle .epoch) (Table.handle .epoch) [] .epoch "192.0.2.1" "a"
        .empty).1 = .issued issued ∧
      issued.expiresAt = .sinceEpoch (.ofMillis 1500) :=
  ⟨_, rfl, rfl⟩

/-- Half a second of the lifetime is left when the token ends. -/
theorem issued_token_lasts_one_second :
    ∃ issued,
      (brief.request (Table.handle .epoch) (Table.handle .epoch) [] .epoch "192.0.2.1" "a"
        .empty).1 = .issued issued ∧
      issued.expiresAt = .sinceEpoch (.ofMillis 1500) ∧
      brief.complete (.sinceEpoch (.ofMillis 999)) issued.token = .ok "a" ∧
      brief.complete (.sinceEpoch (.ofMillis 1000)) issued.token = .error .expired := by
  obtain ⟨issued, asked, granted⟩ := brief_issues
  obtain ⟨_, proves, expired, _⟩ := issued_token_lasts brief _ _ _ _ _ _ _ issued asked
  rw [granted] at proves expired
  exact ⟨issued, asked, granted, proves _ (by decide), expired _ (by decide)⟩

/-- A token need not last until the instant that it was granted for. -/
theorem not_valid_until_granted :
    ¬ ∀ (gate : Gate) (σ : Type) (left right : Handler σ) (turns : List Turn) (now : Instant)
      (address identity : String) (s : σ) (issued : IssuedToken),
      (gate.request left right turns now address identity s).1 = .issued issued →
      now.add? gate.linkTtl = some issued.expiresAt ∧
      ∀ later, now ≤ later →
        (later < issued.expiresAt → gate.complete later issued.token = .ok identity) ∧
        (issued.expiresAt ≤ later → gate.complete later issued.token = .error .expired) := by
  intro lasts
  obtain ⟨issued, asked, granted⟩ := brief_issues
  have proves :=
    ((lasts brief _ _ _ _ _ _ _ _ issued asked).2 (.sinceEpoch (.ofMillis 1000)) (by decide)).1
  rw [granted] at proves
  have begun : issued.expiresAt.wholeSecond ≤ .sinceEpoch (.ofMillis 1000) := by
    rw [granted]
    decide
  have expired := complete_of_request asked (.sinceEpoch (.ofMillis 1000))
  rw [if_pos begun, proves (by decide)] at expired
  cases expired

end LinkGuard.Gate
