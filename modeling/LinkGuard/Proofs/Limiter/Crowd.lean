import LinkGuard.Proofs.Counter.Trouble
import LinkGuard.Proofs.Limiter.Mirror
import LinkGuard.Proofs.Limiter.Stages
import LinkGuard.Proofs.Run

/-! # Many callers at once

Callers of one limiter on one store give their commands one at a time, in any order, and time may
pass between any two of them. Every move changes the rows by a command of one caller, or lets time
pass for all of them.
-/

namespace LinkGuard

/-- Callers of one limiter and what is left of their calls, with the line to the server. -/
structure Crowd where
  line : Remote.Line
  callers : List (Plan (Except StoreError Decision))

inductive Move where
  | enter (key : String)
  /-- The caller gives the next command of its call, if there is one left. -/
  | tell (caller : Nat)
  | pass (millis : Nat)

/-- The milliseconds that pass. -/
def Move.lapse : Move → Nat
  | pass millis => millis
  | _ => 0

namespace Crowd

def start : Crowd := ⟨⟨.empty, false⟩, []⟩

/-- The row of a key. -/
def row (crowd : Crowd) (store : Remote.Store) (key : String) : Option Remote.Row :=
  crowd.line.server.rows.get? (Remote.rowName store.space key)

end Crowd

namespace Policy

/-- What every move makes of a crowd, and what it lets pass between a caller and the store. -/
def interleave (policy : Policy) (store : Remote.Store) : Machine Move Crowd (List (Nat × Exchange))
  | .enter key, crowd => ([], { crowd with callers := crowd.callers ++ [policy.allow key] })
  | .tell i, crowd =>
    match crowd.callers[i]? with
    | none => ([], crowd)
    | some plan =>
      let (plan, line, notes) := plan.step (Handler.noting i store.handle) (crowd.line, [])
      (notes, ⟨line, crowd.callers.set i plan⟩)
  | .pass millis, crowd => ([], { crowd with line.server := crowd.line.server.advance millis })

/-- No command of a caller fails but for a row that cannot count on, and no caller is told that a
    row is over. -/
structure Calm (policy : Policy) (crowd : Crowd) : Prop where
  clear : crowd.line.Clear
  sound : Remote.Sound crowd.line.server.rows
  stands : ∀ plan ∈ crowd.callers, ∃ key, policy.Stage key True True plan

/-- What a move of a caller can be, seen from the rows and the callers. -/
inductive Moved (policy : Policy) (store : Remote.Store) (rows : Keyed Remote.Row)
    (callers : List (Plan (Except StoreError Decision))) :
    List (Nat × Exchange) → Keyed Remote.Row → List (Plan (Except StoreError Decision)) → Prop where
  | idle : Moved policy store rows callers [] rows callers
  | entered (key : String) : Moved policy store rows callers [] rows (callers ++ [policy.allow key])
  | counted {i : Nat} {key : String} {hit : Hit} {rows' : Keyed Remote.Row}
      (own : callers[i]? = some (policy.allow key))
      (carried : store.onRows (.increment key policy.window) rows = (.ok hit, rows')) :
      Moved policy store rows callers [(i, ⟨.increment key policy.window, .ok hit⟩)] rows'
        (callers.set i (policy.afterHit key hit))
  | refused {i : Nat} {key : String} (e : StoreError)
      (own : callers[i]? = some (policy.allow key)) :
      Moved policy store rows callers [(i, ⟨.increment key policy.window, .error e⟩)] rows
        (callers.set i (.done (.error e)))
  | armed {i : Nat} {key : String} {rows' : Keyed Remote.Row}
      (own : callers[i]? = some (policy.arming key))
      (carried : store.onRows (.arm key policy.window) rows = (.ok (), rows')) :
      Moved policy store rows callers [(i, ⟨.arm key policy.window, .ok ()⟩)] rows'
        (callers.set i (.done (.ok .allow)))

variable {policy : Policy} {store : Remote.Store} {crowd : Crowd}

theorem calm_set (calm : policy.Calm crowd) {line : Remote.Line} (clear : line.Clear)
    (sound : Remote.Sound line.server.rows) (i : Nat) (key : String)
    {plan : Plan (Except StoreError Decision)}
    (stage : policy.Stage key True True plan) : policy.Calm ⟨line, crowd.callers.set i plan⟩ := by
  refine ⟨clear, sound, fun other member => ?_⟩
  rcases List.mem_or_eq_of_mem_set member with before | rfl
  · exact calm.stands other before
  · exact ⟨key, stage⟩

theorem tell_done {i : Nat} {result : Except StoreError Decision}
    (own : crowd.callers[i]? = some (.done result)) :
    policy.interleave store (.tell i) crowd = ([], crowd) := by
  obtain ⟨inside, same⟩ := List.getElem?_eq_some_iff.mp own
  have unchanged : crowd.callers.set i (.done result) = crowd.callers := by
    rw [← same]
    exact List.set_getElem_self inside
  simp only [interleave, own, Plan.step, unchanged]

theorem tell_ask (store : Remote.Store) (calm : policy.Calm crowd) {i : Nat} {command : Command}
    {next : Except StoreError command.Answer → Plan (Except StoreError Decision)}
    (own : crowd.callers[i]? = some (.ask command next)) (coarse : command.Coarse) :
    ∃ line, policy.interleave store (.tell i) crowd =
        ([(i, ⟨command, (store.onRows command crowd.line.server.rows).1⟩)],
          ⟨line, crowd.callers.set i (next (store.onRows command crowd.line.server.rows).1)⟩) ∧
      line.server.rows = (store.onRows command crowd.line.server.rows).2 ∧ line.Clear ∧
      Remote.Sound line.server.rows := by
  have troubled := Remote.Server.troubled_of_nothing calm.clear.nothingLaid
  have leads := Remote.Store.handle_leads store troubled calm.sound coarse
  obtain ⟨answer, rows, clear⟩ := Remote.Store.handle_of_clear store calm.clear command
  refine ⟨(store.handle command crowd.line).2, ?_, rows, clear, leads.sound⟩
  simp only [interleave, own, Plan.step, Handler.noting, List.nil_append, answer]

theorem tell_arming (store : Remote.Store) (coarse : .ofMillis 1 ≤ policy.window)
    (calm : policy.Calm crowd) {i : Nat} {key : String}
    (own : crowd.callers[i]? = some (policy.arming key)) :
    ∃ line, policy.interleave store (.tell i) crowd =
        ([(i, ⟨.arm key policy.window, .ok ()⟩)],
          ⟨line, crowd.callers.set i (.done (.ok .allow))⟩) ∧
      store.onRows (.arm key policy.window) crowd.line.server.rows =
        (.ok (), line.server.rows) ∧
      line.Clear ∧ Remote.Sound line.server.rows := by
  obtain ⟨positive, short⟩ := millis_bounds coarse
  obtain ⟨line, told, rows, clear, sound⟩ := tell_ask store calm own positive
  have carried : store.onRows (.arm key policy.window) crowd.line.server.rows =
      (.ok (), line.server.rows) := by
    rw [rows]
    simp only [Remote.Store.onRows, if_pos short]
  rw [carried] at told
  exact ⟨line, told, carried, clear, sound⟩

theorem tell_moved (store : Remote.Store) (coarse : .ofMillis 1 ≤ policy.window)
    (calm : policy.Calm crowd) (i : Nat) :
    let next := policy.interleave store (.tell i) crowd
    policy.Moved store crowd.line.server.rows crowd.callers
      next.1 next.2.line.server.rows next.2.callers ∧
    policy.Calm next.2 := by
  intro next
  cases own : crowd.callers[i]? with
  | none =>
      simp only [next, interleave, own]
      exact ⟨.idle, calm⟩
  | some plan =>
      obtain ⟨key, stage⟩ := calm.stands plan (List.mem_of_getElem? own)
      cases stage with
      | fresh =>
          have asks := own
          rw [allow_eq_ask] at asks
          obtain ⟨line, told, rows, clear, sound⟩ := tell_ask store calm asks trivial
          rw [show next = _ from told]
          cases carried : store.onRows (.increment key policy.window) crowd.line.server.rows with
          | mk answer rows' =>
              rw [carried] at rows
              cases answer with
              | ok hit =>
                  have running := (Remote.Store.hits_of_increment calm.sound carried).2.2
                  refine ⟨rows ▸ .counted own carried, ?_⟩
                  exact calm_set calm clear sound i key (.afterHit running trivial fun _ => trivial)
              | error e =>
                  obtain rfl := Remote.Store.rows_of_refused carried
                  refine ⟨rows ▸ .refused e own, ?_⟩
                  exact calm_set calm clear sound i key (.failed e)
      | arming =>
          obtain ⟨line, told, carried, clear, sound⟩ := tell_arming store coarse calm own
          rw [show next = _ from told]
          exact ⟨.armed own carried, calm_set calm clear sound i key (.allowed trivial trivial)⟩
      | allowed | denied | failed =>
          rw [show next = _ from tell_done own]
          exact ⟨.idle, calm⟩

theorem enter_calm (store : Remote.Store) (calm : policy.Calm crowd) (key : String) :
    policy.Calm (policy.interleave store (.enter key) crowd).2 := by
  refine ⟨calm.clear, calm.sound, fun plan member => ?_⟩
  rcases List.mem_append.mp member with before | new
  · exact calm.stands plan before
  · obtain rfl := List.mem_singleton.mp new
    exact ⟨key, .fresh⟩

theorem interleave_cases (store : Remote.Store) (coarse : .ofMillis 1 ≤ policy.window)
    (calm : policy.Calm crowd) (move : Move) :
    let next := policy.interleave store move crowd
    policy.Calm next.2 ∧
    (next.1 = [] ∧ next.2.callers = crowd.callers ∧
      next.2.line.server.rows = crowd.line.server.rows.mapValues? (Remote.Row.after? move.lapse) ∨
    move.lapse = 0 ∧
      policy.Moved store crowd.line.server.rows crowd.callers
        next.1 next.2.line.server.rows next.2.callers) := by
  cases move with
  | enter key => exact ⟨enter_calm store calm key, .inr ⟨rfl, .entered key⟩⟩
  | tell i =>
      obtain ⟨moved, calm'⟩ := tell_moved store coarse calm i
      exact ⟨calm', .inr ⟨rfl, moved⟩⟩
  | pass millis =>
      refine ⟨⟨⟨calm.clear.heard, calm.clear.nothingLaid⟩, calm.sound.elapse millis, calm.stands⟩,
        ?_⟩
      exact .inl ⟨rfl, rfl, rfl⟩

theorem calm_reached (store : Remote.Store) (coarse : .ofMillis 1 ≤ policy.window)
    (calm : policy.Calm crowd) (moves : List Move) :
    policy.Calm (Machine.reached (policy.interleave store) moves crowd) :=
  Machine.reached_keeps (policy.interleave store) (P := policy.Calm) moves
    (fun move _ _ calm => (interleave_cases store coarse calm move).1) calm

end Policy

end LinkGuard
