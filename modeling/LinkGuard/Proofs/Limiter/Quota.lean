import LinkGuard.Proofs.Limiter.Underway
import LinkGuard.Proofs.Run
import LinkGuard.Proofs.Site.Remotes

/-! # Quotas on a server in trouble

Calls of a limiter come one after the other, time passes between them as it likes, and any request
of any of them may meet trouble. While a row lives, no more calls go through on it than its limit,
and no more than it has counted.
-/

namespace LinkGuard

/-- What can happen around a server: a call of the limiter, whose evaluations take some turns, time
    that passes, and trouble laid down for the next request of a kind under a name. -/
inductive Incident where
  | call (turns : List Turn) (address identity : String)
  | pass (span : Span)
  | lay (row verb : String) (trouble : Remote.Trouble)

/-- Whether it is a call that hits a name. -/
def Incident.hits (d : Dimension) (name : String) : Incident → Bool
  | call _ address identity => d.pick address identity = name
  | _ => false

namespace PlacedLimiter

def endure (placed : PlacedLimiter) : Machine Incident Site (Option Decision)
  | .call turns address identity, site =>
    let (decision, site) := placed.allowIn turns address identity site
    (some decision, site)
  | .pass span, site => (none, (site.advance span).2)
  | .lay row verb trouble, site =>
      (none, { site with server := site.server.lay row verb trouble.fault })

/-- How many calls that hit a name went through. -/
def admissions (placed : PlacedLimiter) (d : Dimension) (name : String) (incidents : List Incident)
    (site : Site) : Nat :=
  (incidents.zip (Machine.answers placed.endure incidents site)).countP
    fun (incident, answer) => incident.hits d name && answer.any Decision.allowed

variable {placed : PlacedLimiter} {stores : Dimension → Remote.Store} {site : Site} {d : Dimension}
  {name : String}

theorem admissions_cons (incident : Incident) (rest : List Incident) :
    placed.admissions d name (incident :: rest) site =
      placed.admissions d name rest (placed.endure incident site).2 +
        if incident.hits d name && (placed.endure incident site).1.any Decision.allowed then 1
        else 0 := by
  simp only [admissions, Machine.answers, List.zip_cons_cons, List.countP_cons]

theorem OnServer.endure (on : placed.OnServer stores site)
    (coarse : ∀ d, .ofMillis 1 ≤ (placed.limiter.policy d).window) (incident : Incident) :
    placed.OnServer stores (placed.endure incident site).2 := by
  cases incident with
  | call turns address identity => exact on.leads (allow_leads on coarse turns address identity)
  | pass span =>
      have rows := site.rows_advance span
      refine ⟨fun d => ?_, Site.troubled_advance on.troubled span, rows ▸ on.sound.elapse _⟩
      obtain ⟨silent, here⟩ := on.here d
      exact ⟨silent, here.advance span⟩
  | lay row verb trouble =>
      refine ⟨on.here, fun laid member => ?_, on.sound⟩
      rcases List.mem_append.mp member with before | now
      · exact on.troubled laid before
      · exact ⟨trouble, congrArg (fun laid => laid.2.2) (List.mem_singleton.mp now)⟩

theorem onServer_reached (on : placed.OnServer stores site)
    (coarse : ∀ d, .ofMillis 1 ≤ (placed.limiter.policy d).window) (incidents : List Incident) :
    placed.OnServer stores (Machine.reached placed.endure incidents site) :=
  Machine.reached_keeps placed.endure (P := placed.OnServer stores) incidents
    (fun incident _ _ on => on.endure coarse incident) on

/-- A row that is there after an incident has counted what went through on it, which is no more than
    the limit. -/
theorem endure_counts (on : placed.OnServer stores site)
    (coarse : ∀ d, .ofMillis 1 ≤ (placed.limiter.policy d).window) (incident : Incident)
    (lives : ((placed.endure incident site).2.server.rows.get? (rowOf stores d name)).isSome)
    {n : Nat} (within : n ≤ (placed.limiter.policy d).limit)
    (counted : (n : Int) ≤ Remote.hits site.server.rows (rowOf stores d name)) :
    let more :=
      if incident.hits d name && (placed.endure incident site).1.any Decision.allowed then 1 else 0
    n + more ≤ (placed.limiter.policy d).limit ∧
      ((n + more : Nat) : Int) ≤
        Remote.hits (placed.endure incident site).2.server.rows (rowOf stores d name) := by
  cases incident with
  | call turns address identity =>
      have leads := allow_leads on coarse turns address identity
      have grown := leads.grows.hits_le leads.sound (rowOf stores d name)
      simp only [Incident.hits, PlacedLimiter.endure, Option.any_some, Bool.and_eq_true,
        decide_eq_true_eq]
      split
      case isTrue admitted =>
        obtain ⟨own, allowed⟩ := admitted
        obtain ⟨exactly, room⟩ := hits_of_allowed on coarse allowed
        have room := room d
        have mine := one_le_share stores address identity d
        have after := exactly (rowOf stores d name)
        rw [Fits, own] at room
        rw [own] at mine
        constructor <;> omega
      case isFalse => constructor <;> omega
  | pass span =>
      simp only [PlacedLimiter.endure, site.rows_advance] at lives ⊢
      rw [Remote.hits_elapse lives]
      exact ⟨within, counted⟩
  | lay row verb trouble => exact ⟨within, counted⟩

theorem admissions_le (on : placed.OnServer stores site)
    (coarse : ∀ d, .ofMillis 1 ≤ (placed.limiter.policy d).window) (incidents : List Incident)
    (lives : Machine.Throughout placed.endure
      (fun s => (s.server.rows.get? (rowOf stores d name)).isSome) incidents site) {n : Nat}
    (within : n ≤ (placed.limiter.policy d).limit)
    (counted : (n : Int) ≤ Remote.hits site.server.rows (rowOf stores d name)) :
    n + placed.admissions d name incidents site ≤ (placed.limiter.policy d).limit ∧
      ((n + placed.admissions d name incidents site : Nat) : Int) ≤
        Remote.hits (Machine.reached placed.endure incidents site).server.rows
          (rowOf stores d name) := by
  -- So far `n` calls went through, which the row has counted and the limit has room for.
  induction incidents generalizing site n with
  | nil => exact ⟨within, counted⟩
  | cons incident rest ih =>
      obtain ⟨here, later⟩ := lives
      obtain ⟨within', counted'⟩ := endure_counts on coarse incident here within counted
      rw [admissions_cons, Nat.add_comm (placed.admissions _ _ _ _), ← Nat.add_assoc]
      exact ih (on.endure coarse incident) later within' counted'

/-- Both limiters sit on a server that starts empty, and any of its requests may meet trouble. A
    call that meets some is denied for the span that is set for that, and a call that goes through
    has counted up the row of each of its dimensions. Of the calls made since the row of a name came
    to be and as long as it lives, no more go through than the limit, and no more than the row has
    counted. -/
theorem quota_holds_in_trouble (placed : PlacedLimiter)
    (coarse : ∀ d, .ofMillis 1 ≤ (placed.limiter.policy d).window)
    (stores : Dimension → Remote.Store) (start : Site)
    (here : ∀ d, ∃ silent, start.RemoteAt (placed.place d) (stores d) silent)
    (fresh : start.server = .empty) (before : List Incident) :
    let site := Machine.reached placed.endure before start
    (∀ turns address identity,
      let call := placed.allowIn turns address identity site
      (placed.Struck stores site call.2 → call.1 = .deny placed.limiter.storeErrorCooldown) ∧
      (call.1.allowed → ∀ row, Remote.hits call.2.server.rows row =
        Remote.hits site.server.rows row + share stores address identity row)) ∧
    ∀ d name, site.server.rows.get? (rowOf stores d name) = none →
      ∀ during, Machine.Throughout placed.endure
        (fun s => (s.server.rows.get? (rowOf stores d name)).isSome) during site →
      placed.admissions d name during site ≤ (placed.limiter.policy d).limit ∧
      (placed.admissions d name during site : Int) ≤
        Remote.hits (Machine.reached placed.endure during site).server.rows
          (rowOf stores d name) := by
  intro site
  have began : placed.OnServer stores start := by
    refine ⟨here, Remote.Server.troubled_of_nothing ?_, ?_⟩
    · rw [fresh]
      rfl
    · rw [fresh]
      exact .empty
  have on : placed.OnServer stores site := onServer_reached began coarse before
  constructor
  · intro turns address identity
    exact ⟨allow_of_struck on coarse, fun allowed => (hits_of_allowed on coarse allowed).1⟩
  · intro d name absent during lives
    have bound := admissions_le on coarse during lives (Nat.zero_le _) (on.sound.hits_nonneg _)
    rw [Nat.zero_add] at bound
    exact bound

/-- A call that is told nothing of the lifetime of its row, and three more: the row counts all
    four. -/
theorem quota_holds_in_trouble_of_four_calls :
    let policy : Policy := ⟨2, .ofSeconds 3600, by decide, by decide, by decide⟩
    let shared : PlacedLimiter := ⟨⟨policy, policy, .ofSeconds 1800⟩, 0, 0⟩
    let store : Remote.Store := ⟨"quota", .ofSeconds 1⟩
    let start : Site := ⟨.epoch, [.remote store false], .empty⟩
    let stores : Dimension → Remote.Store := fun _ => store
    let turns : List Turn := [.second, .first]
    let before : List Incident := [.lay "quota:ip:a" "PTTL" .null]
    let during : List Incident := [.call [] "a" "b", .call turns "a" "b",
      .pass (.ofSeconds 60), .call [] "a" "b", .call [.second] "a" "b"]
    let site := Machine.reached shared.endure before start
    (∀ d, .ofMillis 1 ≤ (shared.limiter.policy d).window) ∧
    (∀ d, ∃ silent, start.RemoteAt (shared.place d) (stores d) silent) ∧ start.server = .empty ∧
    shared.Struck stores site (shared.allowIn turns "a" "b" site).2 ∧
    (shared.allowIn turns "a" "b" site).1 = .deny (.ofSeconds 1800) ∧
    site.server.rows.get? (rowOf stores .address "a") = none ∧
    Machine.Throughout shared.endure
      (fun s => (s.server.rows.get? (rowOf stores .address "a")).isSome) during site ∧
    shared.admissions .address "a" during site ≤ 2 := by
  intro policy shared store start stores turns before during site
  have coarse : ∀ d, .ofMillis 1 ≤ (shared.limiter.policy d).window := by decide
  have here : ∀ d, ∃ silent, start.RemoteAt (shared.place d) (stores d) silent := fun d =>
    ⟨false, by cases d <;> rfl⟩
  have struck : shared.Struck stores site (shared.allowIn turns "a" "b" site).2 :=
    .inl (by decide +kernel)
  have absent : site.server.rows.get? (rowOf stores .address "a") = none := by decide +kernel
  have lives : Machine.Throughout shared.endure
      (fun s => (s.server.rows.get? (rowOf stores .address "a")).isSome) during site := by
    refine ⟨?_, ?_, ?_, ?_, ?_, trivial⟩ <;> decide +kernel
  obtain ⟨calls, quota⟩ := quota_holds_in_trouble shared coarse stores start here rfl before
  have admitted := (quota .address "a" absent during lives).1
  exact ⟨coarse, here, rfl, struck, (calls turns "a" "b").1 struck, absent, lives, admitted⟩

end PlacedLimiter

end LinkGuard
