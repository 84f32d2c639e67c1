import LinkGuard.Proofs.Counter.Struck
import LinkGuard.Proofs.Limiter.Mirror
import LinkGuard.Proofs.Limiter.Shared
import LinkGuard.Proofs.Limiter.Stages
import LinkGuard.Proofs.Site.Timed
import LinkGuard.Proofs.Site.Troubled

/-! # Counters without an end

A counter on a server is left without an end when its first hit fails halfway. No limiter sets one
afterwards: what room there is gets used up, and then every hit is denied for good.
-/

namespace LinkGuard

/-- The store at a place is answered, and its row for a key has counted some hits and has no end. -/
structure Site.Stuck (site : Site) (place : Nat) (store : Remote.Store) (key : String)
    (count : Nat) : Prop where
  answered : site.HasRemote place store
  row : site.server.rows.get? (Remote.rowName store.space key) = some ⟨count, -1⟩
  counts : 1 ≤ count

/-- How often a key is hit in a run. -/
def hitsOn (key : String) (events : List (Timed LimiterCall)) : Nat :=
  events.count (.act (.allow key))

theorem hitsOn_cons (key : String) (event : Timed LimiterCall) (rest : List (Timed LimiterCall)) :
    hitsOn key (event :: rest) = hitsOn key [event] + hitsOn key rest := by
  rw [hitsOn, ← List.singleton_append, List.count_append]
  rfl

theorem hitsOn_take_lt {key : String} {events : List (Timed LimiterCall)} {i : Nat}
    (found : events[i]? = some (.act (.allow key))) :
    hitsOn key (events.take i) < hitsOn key events := by
  have upTo : hitsOn key (events.take (i + 1)) = hitsOn key (events.take i) + 1 := by
    rw [List.take_add_one, found, hitsOn, List.count_append, Option.toList_some,
      List.count_singleton_self]
    rfl
  have most : hitsOn key (events.take (i + 1)) ≤ hitsOn key events :=
    (List.take_sublist _ _).count_le _
  omega

namespace Policy

/-- The limiter on the store at a place. -/
def callAt (policy : Policy) (place : Nat) : Machine LimiterCall Site LimiterAnswer :=
  fun call => (policy.plan call).run (Site.handler place)

theorem about_plan (policy : Policy) (call : LimiterCall) : (policy.plan call).About call.key := by
  cases call with
  | allow key => exact (policy.about_allow key).map _
  | cooldown key => exact (policy.about_cooldown key).map _

theorem judge_unarmed (policy : Policy) {count : Nat} (counts : 1 ≤ count) :
    policy.judge ⟨count + 1, .unarmed⟩ =
      .settled (if count < policy.limit then .allow else .deny policy.window) := by
  have later : ¬ count + 1 = 1 := by omega
  simp only [judge, later, if_false]
  by_cases within : count < policy.limit
  · rw [if_pos (Nat.succ_le_of_lt within), if_pos within]
  · rw [if_neg (by omega), if_neg within]

theorem allow_run_of_settled {σ : Type} {handler : Handler σ} {s : σ} {policy : Policy}
    {key : String} {hit : Hit} {decision : Decision}
    (counted : (handler (.increment key policy.window) s).1 = .ok hit)
    (settled : policy.judge hit = .settled decision) :
    (policy.allow key).run handler s =
      (.ok decision, (handler (.increment key policy.window) s).2) := by
  simp only [allow, Plan.run, counted, settled]

end Policy

namespace Site.Stuck

variable {site : Site} {place count : Nat} {store : Remote.Store} {key : String}

theorem pass (stuck : site.Stuck place store key count) (span : Span) :
    (site.advance span).2.Stuck place store key count ∧
      site.server.UnarmedSince (Remote.rowName store.space key) (site.advance span).2.server := by
  refine ⟨⟨stuck.answered.advance span, ?_, stuck.counts⟩, [], ?_, fun _ => List.not_mem_nil⟩
  · rw [rows_advance, Keyed.get?_mapValues?, stuck.row]
    rfl
  · rw [requests_advance, List.append_nil]

theorem allow (stuck : site.Stuck place store key count) (policy : Policy)
    (room : (count : Int) < Remote.Server.maxCount) :
    (policy.callAt place (.allow key) site).1 =
        .decision (.ok (if count < policy.limit then .allow else .deny policy.window)) ∧
      (policy.callAt place (.allow key) site).2.Stuck place store key (count + 1) ∧
      site.server.UnarmedSince (Remote.rowName store.space key)
        (policy.callAt place (.allow key) site).2.server := by
  obtain ⟨answer, rows, _, answered⟩ :=
    handler_of_remote stuck.answered (.increment key policy.window)
  have sent := requests_handler stuck.answered (.increment key policy.window)
  rw [Remote.Store.increment_of_row stuck.row room] at answer rows
  have settled := Policy.allow_run_of_settled answer (policy.judge_unarmed stuck.counts)
  simp only [Policy.callAt, Policy.plan, Plan.run_map, settled]
  refine ⟨trivial, ⟨answered, ?_, Nat.succ_le_succ (Nat.zero_le count)⟩, _, sent, fun millis => ?_⟩
  · rw [rows, Keyed.get?_set, if_pos rfl]
    rfl
  · simp [Command.requests]

theorem cooldown (stuck : site.Stuck place store key count) (policy : Policy) :
    (policy.callAt place (.cooldown key) site).1 = .wait (.ok policy.window) ∧
      (policy.callAt place (.cooldown key) site).2.Stuck place store key count ∧
      site.server.UnarmedSince (Remote.rowName store.space key)
        (policy.callAt place (.cooldown key) site).2.server := by
  obtain ⟨answer, rows, _, answered⟩ := handler_of_remote stuck.answered (.remaining key)
  have sent := requests_handler stuck.answered (.remaining key)
  have lives : store.onRows (.remaining key) site.server.rows =
      (.ok .unarmed, site.server.rows) := by
    simp only [Remote.Store.onRows, stuck.row]
    rfl
  rw [lives] at answer rows
  simp only [Policy.callAt, Policy.plan, Plan.run_map, Policy.cooldown, Plan.run, answer]
  refine ⟨rfl, ⟨answered, ?_, stuck.counts⟩, _, sent, fun millis => ?_⟩
  · rw [rows, stuck.row]
  · simp [Command.requests]

theorem other (stuck : site.Stuck place store key count) (policy : Policy) {call : LimiterCall}
    (apart : call.key ≠ key) :
    (policy.callAt place call site).2.Stuck place store key count ∧
      site.server.UnarmedSince (Remote.rowName store.space key)
        (policy.callAt place call site).2.server := by
  refine (policy.about_plan call).run_keeps
    (P := fun (s : Site) => s.Stuck place store key count ∧
      site.server.UnarmedSince (Remote.rowName store.space key) s.server)
    (fun command s named kept => ?_) ⟨stuck, Remote.Server.AgreeAt.unarmedSince ⟨rfl, rfl⟩⟩
  obtain ⟨stuck, since⟩ := kept
  obtain ⟨_, _, _, answered⟩ := handler_of_remote stuck.answered command
  have agree := (handler_spares place command s).row (Remote.rowName store.space key)
      fun space held same => by
    obtain rfl := Option.some.inj ((space?_of_remote stuck.answered).symm.trans held)
    exact apart (named.symm.trans (Remote.rowName_eq_iff.mp same))
  exact ⟨⟨answered, agree.row.trans stuck.row, stuck.counts⟩, since.trans agree.unarmedSince⟩

/-- What the events of a run make of a counter without an end, one after the other. -/
theorem step (stuck : site.Stuck place store key count) (policy : Policy)
    (event : Timed LimiterCall)
    (room : ((count + hitsOn key [event] : Nat) : Int) ≤ Remote.Server.maxCount) :
    (Machine.overTime (policy.callAt place) event site).2.Stuck place store key
        (count + hitsOn key [event]) ∧
      site.server.UnarmedSince (Remote.rowName store.space key)
        (Machine.overTime (policy.callAt place) event site).2.server := by
  cases event with
  | pass span => exact stuck.pass span
  | act call =>
      by_cases own : call.key = key
      · subst own
        cases call with
        | allow key =>
            have one : hitsOn (LimiterCall.allow key).key [.act (.allow key)] = 1 :=
              List.count_singleton_self
            rw [one] at room ⊢
            exact (stuck.allow policy (by omega)).2
        | cooldown key => exact (stuck.cooldown policy).2
      · have none : hitsOn key [.act call] = 0 := by
          refine List.count_eq_zero.mpr fun member => own ?_
          rw [← Timed.act.inj (List.mem_singleton.mp member), LimiterCall.key]
        rw [none]
        exact stuck.other policy own

theorem run (stuck : site.Stuck place store key count) (policy : Policy)
    (events : List (Timed LimiterCall))
    (room : ((count + hitsOn key events : Nat) : Int) ≤ Remote.Server.maxCount) :
    (Machine.reached (Machine.overTime (policy.callAt place)) events site).Stuck place store key
        (count + hitsOn key events) ∧
      site.server.UnarmedSince (Remote.rowName store.space key)
        (Machine.reached (Machine.overTime (policy.callAt place)) events site).server := by
  induction events generalizing site count with
  | nil => exact ⟨stuck, Remote.Server.AgreeAt.unarmedSince ⟨rfl, rfl⟩⟩
  | cons event rest ih =>
      rw [hitsOn_cons, ← Nat.add_assoc] at room ⊢
      obtain ⟨stuck', since⟩ := stuck.step policy event (by omega)
      obtain ⟨last, since'⟩ := ih stuck' room
      exact ⟨last, since.trans since'⟩

section

variable {events : List (Timed LimiterCall)} {i : Nat}

theorem before (stuck : site.Stuck place store key count) (policy : Policy) (i : Nat)
    (room : ((count + hitsOn key events : Nat) : Int) ≤ Remote.Server.maxCount) :
    (Machine.reached (Machine.overTime (policy.callAt place)) (events.take i) site).Stuck
      place store key (count + hitsOn key (events.take i)) := by
  have fewer : hitsOn key (events.take i) ≤ hitsOn key events :=
    (List.take_sublist i events).count_le _
  exact (stuck.run policy (events.take i) (by omega)).1

theorem answer_of_hit (stuck : site.Stuck place store key count) (policy : Policy)
    (room : ((count + hitsOn key events : Nat) : Int) ≤ Remote.Server.maxCount)
    (found : events[i]? = some (.act (.allow key))) :
    (Machine.answers (Machine.overTime (policy.callAt place)) events site)[i]? =
      some (some (.decision (.ok
        (if hitsOn key (events.take i) < policy.limit - count then .allow
        else .deny policy.window)))) := by
  have less := hitsOn_take_lt found
  have decided := ((stuck.before policy i room).allow policy (by omega)).1
  have same : count + hitsOn key (events.take i) < policy.limit ↔
      hitsOn key (events.take i) < policy.limit - count := by
    omega
  simp only [same] at decided
  simp only [Machine.answers_getElem?, found, Option.map_some, Machine.overTime, decided]

theorem answer_of_question (stuck : site.Stuck place store key count) (policy : Policy)
    (room : ((count + hitsOn key events : Nat) : Int) ≤ Remote.Server.maxCount)
    (found : events[i]? = some (.act (.cooldown key))) :
    (Machine.answers (Machine.overTime (policy.callAt place)) events site)[i]? =
      some (some (.wait (.ok policy.window))) := by
  have told := ((stuck.before policy i room).cooldown policy).1
  simp only [Machine.answers_getElem?, found, Option.map_some, Machine.overTime, told]

end

end Site.Stuck

namespace Policy

variable {store : Remote.Store} {key verb : String} {trouble : Remote.Trouble}

theorem allow_of_awaits (policy : Policy) {line : Remote.Line}
    (awaits : line.Awaits (Remote.rowName store.space key) verb trouble)
    (fresh : line.server.rows.get? (Remote.rowName store.space key) = none)
    (late : verb = "PTTL" ∨ verb = "PEXPIRE") :
    let after := (policy.allow key).run store.handle line
    (∃ e, after.1 = .error e) ∧
      after.2.server.rows = line.server.rows.set (Remote.rowName store.space key) ⟨1, -1⟩ ∧
      after.2.server.faults = [] ∧ (trouble ≠ .hang → after.2.silent = false) := by
  intro after
  simp only [after, allow_eq_ask, Plan.run, Remote.Store.handle]
  rcases late with rfl | rfl
  · obtain ⟨⟨e, failed⟩, counted⟩ := Remote.Store.increment_of_awaited_lifetime awaits fresh
    rw [failed]
    exact ⟨⟨e, rfl⟩, counted⟩
  · obtain ⟨hit, rows, awaits'⟩ := Remote.Store.increment_of_awaited_end awaits fresh
    obtain ⟨⟨e, failed⟩, struck⟩ := Remote.Store.arm_of_awaited_end awaits' policy.millis_le
    have arms : policy.afterCounting key (.ok ⟨1, .unarmed⟩) = policy.arming key := rfl
    rw [hit, arms]
    simp only [arming, Plan.run, Remote.Store.handle, failed]
    exact ⟨⟨e, rfl⟩, struck.rows.trans rows, struck.nothingLaid, struck.heard⟩

theorem stuck_of_first_hit {site : Site} {place : Nat} (policy : Policy)
    (has : site.HasRemote place store)
    (fresh : site.server.rows.get? (Remote.rowName store.space key) = none)
    (late : verb = "PTTL" ∨ verb = "PEXPIRE") :
    let struck := policy.callAt place (.allow key)
      { site with server := site.server.lay (Remote.rowName store.space key) verb trouble.fault }
    (∃ e, struck.1 = .decision (.error e)) ∧
    (trouble ≠ .hang → struck.2.RemoteAt place store false) ∧
      ∀ home heard, struck.2.RemoteAt home heard false → heard.space = store.space →
        struck.2.Stuck home heard key 1 := by
  intro struck
  let laid : Site :=
    { site with server := site.server.lay (Remote.rowName store.space key) verb trouble.fault }
  let line := ((policy.allow key).run store.handle ⟨laid.server, false⟩).2
  have here : laid.RemoteAt place store false := has.here
  have awaits : Remote.Line.Awaits ⟨laid.server, false⟩ (Remote.rowName store.space key)
      verb trouble := by
    refine ⟨rfl, ?_⟩
    simp only [laid, Remote.Server.lay, has.nothingLaid, List.nil_append]
  obtain ⟨⟨e, failed⟩, rows, nothingLaid, heard⟩ := policy.allow_of_awaits awaits fresh late
  have moved : struck = (.decision (.error e), laid.putLine place store line) := by
    simp only [struck, callAt, plan, Plan.run_map]
    rw [Site.run_of_remoteAt _ here, failed]
  rw [moved]
  refine ⟨⟨e, rfl⟩, ?_, ?_⟩
  · intro other
    have still := Site.remoteAt_putLine here line
    rw [heard other] at still
    exact still
  · intro home reader there same
    refine ⟨⟨there, nothingLaid⟩, ?_, Nat.le_refl 1⟩
    rw [same, Site.putLine, rows, Keyed.get?_set, if_pos rfl]
    rfl

/-- A counter that has counted hits and has no end fails closed for ever. It comes from a first hit
    that was counted and then met trouble; every connection to its space that is still heard finds
    it so. In any later run, as far as the server has room to count, the hits up to the limit are
    let through, every one after them is told to wait a whole window, and so is whoever asks for the
    wait. Each hit adds one to the count, and nothing that is sent gives the row an end. -/
theorem stuck_fails_closed (policy : Policy) (store : Remote.Store) (key : String) :
    (∀ (site : Site) (place : Nat) (verb : String) (trouble : Remote.Trouble),
      site.HasRemote place store → site.server.rows.get? (Remote.rowName store.space key) = none →
      verb = "PTTL" ∨ verb = "PEXPIRE" →
        let struck := policy.callAt place (.allow key)
          { site with server :=
            site.server.lay (Remote.rowName store.space key) verb trouble.fault }
        (∃ e, struck.1 = .decision (.error e)) ∧
        (trouble ≠ .hang → struck.2.RemoteAt place store false) ∧
        ∀ home heard, struck.2.RemoteAt home heard false → heard.space = store.space →
          struck.2.Stuck home heard key 1) ∧
    ∀ (site : Site) (place count : Nat), site.Stuck place store key count →
    ∀ events : List (Timed LimiterCall),
      ((count + hitsOn key events : Nat) : Int) ≤ Remote.Server.maxCount →
        let answers := Machine.answers (Machine.overTime (policy.callAt place)) events site
        let last := Machine.reached (Machine.overTime (policy.callAt place)) events site
        (∀ i : Nat, events[i]? = some (.act (.allow key)) → answers[i]? = some (some (.decision (.ok
          (if hitsOn key (events.take i) < policy.limit - count then .allow
          else .deny policy.window))))) ∧
        (∀ i : Nat, events[i]? = some (.act (.cooldown key)) →
          answers[i]? = some (some (.wait (.ok policy.window)))) ∧
        last.Stuck place store key (count + hitsOn key events) ∧
        site.server.UnarmedSince (Remote.rowName store.space key) last.server := by
  constructor
  · intro site place verb trouble has fresh late
    exact policy.stuck_of_first_hit has fresh late
  · intro site place count stuck events room answers last
    refine ⟨?_, ?_, stuck.run policy events room⟩
    · intro i found
      exact stuck.answer_of_hit policy room found
    · intro i found
      exact stuck.answer_of_question policy room found

/-- The first of two hits a minute is counted, and its lifetime comes back as a null. Of the next
    two hits one is let through, and an hour later the wait is still a minute. -/
theorem stuck_fails_closed_of_null :
    let policy : Policy := ⟨2, .ofSeconds 60, Nat.two_pos, minute_pos, minute_le_longestWindow⟩
    let store : Remote.Store := ⟨"s", .ofMillis 500⟩
    let site : Site := ⟨.epoch, [.remote store false], .empty⟩
    let struck := policy.callAt 0 (.allow "a")
      { site with server := site.server.lay "s:a" "PTTL" (.reply .null) }
    let events : List (Timed LimiterCall) :=
      [.act (.allow "a"), .act (.allow "a"), .pass (.ofSeconds 3600), .act (.cooldown "a")]
    let answers := Machine.answers (Machine.overTime (policy.callAt 0)) events struck.2
    struck.2.Stuck 0 store "a" 1 ∧ hitsOn "a" events = 2 ∧
      answers[0]? = some (some (.decision (.ok .allow))) ∧
      answers[1]? = some (some (.decision (.ok (.deny (.ofSeconds 60))))) ∧
      answers[3]? = some (some (.wait (.ok (.ofSeconds 60)))) := by
  intro policy store site struck events answers
  obtain ⟨first, later⟩ := policy.stuck_fails_closed store "a"
  have has : site.HasRemote 0 store := ⟨rfl, rfl⟩
  obtain ⟨_, heard, stuck⟩ := first site 0 "PTTL" .null has rfl (.inl rfl)
  have stuck := stuck 0 store (heard (by decide)) rfl
  obtain ⟨decided, told, _⟩ := later struck.2 0 1 stuck events (by decide)
  exact ⟨stuck, rfl, decided 0 rfl, decided 1 rfl, told 3 rfl⟩

end Policy

end LinkGuard
