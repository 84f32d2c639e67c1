import LinkGuard.Proofs.Gate.Lifetime
import LinkGuard.Proofs.Limiter.Trail
import LinkGuard.Proofs.Run
import LinkGuard.Proofs.Settings.Opened

/-! # The cap on tokens

However requests are spread over addresses and identities, the tokens issued for one identity, and
those issued to one address, are admitted hits of one key, so an interval holds no more of them than
its windows admit. Nothing is assumed of what the tables hold when the run begins, or of their being
two or one.
-/

namespace LinkGuard

inductive GateCall where
  | request (address identity : String)
  | complete (token : String)

inductive GateReply where
  | requested (answer : GateAnswer)
  | completed (answer : Except TokenError String)

/-- Whether a token is issued, to that address or for that identity. -/
def GateReply.issuesTo (d : Dimension) (name : String) : GateCall → GateReply → Bool
  | .request address identity, .requested (.issued _) => d.pick address identity = name
  | _, _ => false

/-- The instants at which tokens are issued to an address or for an identity. -/
def issuedTimes (d : Dimension) (name : String) (calls : List (Instant × GateCall))
    (replies : List GateReply) : List Instant :=
  (calls.zip replies).filterMap fun ((now, call), reply) =>
    if reply.issuesTo d name call then some now else none

namespace PlacedGate

def serve (gate : PlacedGate) : Machine (Instant × GateCall) Site GateReply
  | (now, .request address identity), site =>
    let (answer, site) := gate.request address identity { site with now }
    (.requested answer, site)
  | (now, .complete token), site => (.completed (gate.gate.complete now token), { site with now })

variable {gate : PlacedGate} {site : Site}

theorem request_of_not_carried {identity : String} (odd : Token.carries identity = false)
    (address : String) :
    gate.request address identity site = (.refused (.token .malformedPayload), site) :=
  Gate.request_of_not_carried odd

theorem request_of_carried {identity : String} (carried : Token.carries identity = true)
    (address : String) :
    gate.request address identity site =
      (if (gate.placed.allow address identity site).1.allowed then gate.gate.issue site.now identity
        else .refused (.throttled (gate.placed.allow address identity site).1.retryAfter),
        (gate.placed.allow address identity site).2) :=
  Gate.request_of_carried carried

theorem hit_of_issued (tables : gate.placed.OnTables site) {address identity : String}
    {token : IssuedToken} (issued : (gate.request address identity site).1 = .issued token)
    (d : Dimension) : (gate.placed.hit site d (d.pick address identity)).1 = .ok .allow := by
  cases carried : Token.carries identity with
  | false =>
      rw [request_of_not_carried carried] at issued
      cases issued
  | true =>
      rw [request_of_carried carried] at issued
      split at issued
      case isTrue allowed => exact PlacedLimiter.hit_of_allowed tables allowed d
      case isFalse => cases issued

theorem onTables_serve (tables : gate.placed.OnTables site) (now : Instant) (call : GateCall) :
    gate.placed.OnTables (gate.serve (now, call) site).2 := by
  have tables : gate.placed.OnTables { site with now } := tables
  cases call with
  | complete token => exact tables
  | request address identity =>
      cases carried : Token.carries identity with
      | false =>
          simp only [serve, request_of_not_carried carried]
          exact tables
      | true =>
          simp only [serve, request_of_carried carried]
          exact PlacedLimiter.onTables_allow tables address identity

/-- A call either passes a key by, or hits it once; in the second case it may issue a token, if the
    hit is allowed. -/
theorem serve_step (tables : gate.placed.OnTables site) (now : Instant) (call : GateCall)
    (d : Dimension) (name : String) :
    let w := gate.placed.window? site d name
    let reply := (gate.serve (now, call) site).1
    let w' := gate.placed.window? (gate.serve (now, call) site).2 d name
    (w' = w ∧ reply.issuesTo d name call = false) ∨
    (w' = ((gate.placed.policy d).hit now w).2 ∧
      (reply.issuesTo d name call = true → ((gate.placed.policy d).hit now w).1 = .ok .allow)) := by
  intro w reply w'
  have tables : gate.placed.OnTables { site with now } := tables
  cases call with
  | complete token => exact .inl ⟨rfl, rfl⟩
  | request address identity =>
      cases carried : Token.carries identity with
      | false =>
          simp only [w', reply, serve, request_of_not_carried carried]
          exact .inl ⟨rfl, rfl⟩
      | true =>
          have moved := PlacedLimiter.window?_allow tables address identity d name
          have reached : (gate.serve (now, .request address identity) site).2 =
              (gate.placed.allow address identity { site with now }).2 := by
            simp only [serve, request_of_carried carried]
          rw [← reached] at moved
          by_cases named : d.pick address identity = name
          · refine .inr ⟨moved.trans (if_pos named), fun issues => ?_⟩
            cases answer : (gate.request address identity { site with now }).1 with
            | issued token =>
                have allowed := hit_of_issued tables answer d
                rw [named] at allowed
                exact allowed
            | refused | pastCalendar => simp [reply, serve, answer, GateReply.issuesTo] at issues
          · refine .inl ⟨moved.trans (if_neg named), ?_⟩
            cases answer : (gate.request address identity { site with now }).1 <;>
              simp [reply, serve, answer, GateReply.issuesTo, named]

/-- The tokens issued under one name leave a trail of admitted hits of its key. -/
theorem issued_trail (d : Dimension) (name : String) (tables : gate.placed.OnTables site)
    {since : Int} {calls : List (Instant × GateCall)}
    (ordered : (calls.map Prod.fst).Pairwise (· ≤ ·))
    (later : ∀ call ∈ calls, since ≤ call.1.nanos) :
    (gate.placed.policy d).Trail since (gate.placed.window? site d name)
      (issuedTimes d name calls (Machine.answers gate.serve calls site)) := by
  -- The clock of the call before is the `since` of the calls after it.
  induction calls generalizing site since with
  | nil => exact .closed
  | cons first rest ih =>
      obtain ⟨now, call⟩ := first
      obtain ⟨following, orderedRest⟩ := List.pairwise_cons.mp ordered
      have after : since ≤ now.nanos := later _ List.mem_cons_self
      have next : ∀ call ∈ rest, now.nanos ≤ call.1.nanos := fun call member =>
        following _ (List.mem_map_of_mem member)
      have trail := ih (onTables_serve tables now call) orderedRest next
      simp only [Machine.answers, issuedTimes, List.zip_cons_cons, List.filterMap_cons]
      rcases serve_step tables now call d name with ⟨kept, passed⟩ | ⟨moved, allowed⟩
      · rw [kept] at trail
        simp only [passed, Bool.false_eq_true, if_false]
        exact trail.earlier after
      · rw [moved] at trail
        cases issues : (gate.serve (now, call) site).1.issuesTo d name call with
        | false =>
            simp only [Bool.false_eq_true, if_false]
            exact .turnedAway after trail
        | true =>
            simp only [if_true]
            exact .admitted after (allowed issues) trail

/-- Whatever is requested and handed in under a clock that never goes back: in a half-open interval
    of `k` windows of the identity policy at most `(k + 1)` times its limit of tokens are issued for
    one identity, from whatever addresses; and likewise to one address, for whatever identities. -/
theorem tokens_capped (gate : PlacedGate) (site : Site) (tables : gate.placed.OnTables site)
    (calls : List (Instant × GateCall)) (ordered : (calls.map Prod.fst).Pairwise (· ≤ ·)) :
    let replies := Machine.answers gate.serve calls site
    let identityPolicy := gate.gate.limiter.identity
    let addressPolicy := gate.gate.limiter.address
    (∀ (identity : String) (start : Int) (k : Nat),
      Policy.countWithin start (start + (k * identityPolicy.window.nanos : Nat))
        (issuedTimes .identity identity calls replies) ≤ (k + 1) * identityPolicy.limit) ∧
    ∀ (address : String) (start : Int) (k : Nat),
      Policy.countWithin start (start + (k * addressPolicy.window.nanos : Nat))
        (issuedTimes .address address calls replies) ≤ (k + 1) * addressPolicy.limit := by
  intro replies identityPolicy addressPolicy
  have began : ∀ call ∈ calls, _ ≤ call.1.nanos := fun call _ => call.1.first_le
  constructor
  · intro identity start k
    exact (issued_trail .identity identity tables ordered began).countWithin_le start k
  · intro address start k
    exact (issued_trail .address address tables ordered began).countWithin_le start k

/-- A gate set up with settings that name a secret and nothing else, asked twice in a row about one
    identity. -/
theorem tokens_capped_as_opened :
    let calls : List (Instant × GateCall) :=
      [(.epoch, .request "192.0.2.1" "a"), (.epoch, .request "192.0.2.2" "a"),
        (.epoch, .complete "a")]
    ∃ gate site,
      Settings.openGate { token := { secret := "k" } } .isolated (.start .epoch) =
        .ok (gate, site) ∧
      gate.placed.OnTables site ∧ (calls.map Prod.fst).Pairwise (· ≤ ·) ∧
      issuedTimes .identity "a" calls (Machine.answers gate.serve calls site) = [.epoch, .epoch] ∧
      ∀ k : Nat, Policy.countWithin 0 (0 + (k * gate.gate.limiter.identity.window.nanos : Nat))
        (issuedTimes .identity "a" calls (Machine.answers gate.serve calls site)) ≤
          (k + 1) * gate.gate.limiter.identity.limit := by
  intro calls
  have ordered : (calls.map Prod.fst).Pairwise (· ≤ ·) := by decide
  obtain ⟨gate, site, opened⟩ : ∃ gate site,
      Settings.openGate { token := { secret := "k" } } .isolated (.start .epoch) =
        .ok (gate, site) := by
    exact ⟨_, _, rfl⟩
  have tables := Settings.openGate_onTables rfl opened
  refine ⟨gate, site, opened, tables, ordered, ?_, fun k => ?_⟩
  · cases opened
    rfl
  · exact (tokens_capped gate site tables calls ordered).1 "a" 0 k

end PlacedGate

end LinkGuard
