import LinkGuard.Proofs.Counter.Trouble

/-! # A request that meets trouble

Trouble that is laid down for one kind of request under one name lets all other requests through,
and is used up by the first one of its kind. That one is not carried out, and gets no number for a
reply.
-/

namespace LinkGuard.Remote

/-- The line is heard, and nothing is laid down but trouble for the next request of a kind under a
    name. -/
structure Line.Awaits (line : Line) (name verb : String) (trouble : Trouble) : Prop where
  heard : line.silent = false
  laid : line.server.faults = [(name, verb, trouble.fault)]

/-- The line after the trouble has been met. Only silence lasts. -/
structure Line.Struck (trouble : Trouble) (line line' : Line) : Prop where
  rows : line'.server.rows = line.server.rows
  nothingLaid : line'.server.faults = []
  heard : trouble ≠ .hang → line'.silent = false

namespace Line.Awaits

variable {line : Line} {name verb : String} {trouble : Trouble}

theorem missed (awaits : line.Awaits name verb trouble) (request : Request)
    (other : request.verb ≠ verb) :
    (line.send name request).1 = some (Server.carryOut line.server.rows name request).1 ∧
      (line.send name request).2.server.rows = (Server.carryOut line.server.rows name request).2 ∧
      (line.send name request).2.Awaits name verb trouble := by
  have laid : (line.server.note name request).faults = [(name, verb, trouble.fault)] := awaits.laid
  have passed : Server.takeFault name request.verb [(name, verb, trouble.fault)] = none := by
    rw [Server.takeFault, if_neg fun same => other same.2.symm]
    rfl
  simp only [Line.send, awaits.heard, Bool.false_eq_true, if_false, Server.receive, laid, passed]
  exact ⟨rfl, rfl, rfl, rfl⟩

theorem struck (awaits : line.Awaits name verb trouble) (request : Request)
    (same : request.verb = verb) :
    (∀ n, (line.send name request).1 ≠ some (.integer n)) ∧
    line.Struck trouble (line.send name request).2 := by
  have laid : (line.server.note name request).faults = [(name, verb, trouble.fault)] := awaits.laid
  have taken : Server.takeFault name request.verb [(name, verb, trouble.fault)] =
      some (trouble.fault, []) := by
    rw [Server.takeFault, if_pos ⟨rfl, same.symm⟩]
  simp only [Line.send, awaits.heard, Bool.false_eq_true, if_false, Server.receive, laid, taken]
  refine ⟨fun n same => ?_, ?_⟩
  · cases trouble <;> cases same
  · cases trouble with
    | complaint text => exact ⟨rfl, rfl, fun _ => rfl⟩
    | null => exact ⟨rfl, rfl, fun _ => rfl⟩
    | hang => exact ⟨rfl, rfl, fun other => absurd rfl other⟩

end Line.Awaits

namespace Store

variable {store : Store} {key : String} {line : Line} {trouble : Trouble}

/-- The first hit of a key whose lifetime cannot be told is counted, and fails. -/
theorem increment_of_awaited_lifetime
    (awaits : line.Awaits (rowName store.space key) "PTTL" trouble)
    (fresh : line.server.rows.get? (rowName store.space key) = none) :
    (∃ e, (store.increment key line).1 = .error e) ∧
      (store.increment key line).2.server.rows =
        line.server.rows.set (rowName store.space key) ⟨1, -1⟩ ∧
      (store.increment key line).2.server.faults = [] ∧
      (trouble ≠ .hang → (store.increment key line).2.silent = false) := by
  obtain ⟨_, rows, awaits'⟩ := awaits.missed .increment (by decide)
  obtain ⟨unread, struck⟩ := awaits'.struck .lifetime rfl
  refine ⟨?_, ?_⟩
  · cases answer : (store.increment key line).1 with
    | error e => exact ⟨e, rfl⟩
    | ok hit =>
        obtain ⟨_, lifetime, _, asked, _⟩ := increment_eq_ok answer
        exact absurd asked (unread lifetime)
  · rw [increment_line, struck.rows, rows]
    simp only [Server.carryOut, fresh, Option.getD_none]
    exact ⟨rfl, struck.nothingLaid, struck.heard⟩

theorem increment_of_awaited_end (awaits : line.Awaits (rowName store.space key) "PEXPIRE" trouble)
    (fresh : line.server.rows.get? (rowName store.space key) = none) :
    (store.increment key line).1 = .ok ⟨1, .unarmed⟩ ∧
      (store.increment key line).2.server.rows =
        line.server.rows.set (rowName store.space key) ⟨1, -1⟩ ∧
      (store.increment key line).2.Awaits (rowName store.space key) "PEXPIRE" trouble := by
  obtain ⟨counted, rows, awaits'⟩ := awaits.missed .increment (by decide)
  obtain ⟨asked, rows', awaits''⟩ := awaits'.missed .lifetime (by decide)
  rw [rows, Server.carryOut_lifetime] at asked rows'
  have made : Server.carryOut line.server.rows (rowName store.space key) .increment =
      (.integer 1, line.server.rows.set (rowName store.space key) ⟨1, -1⟩) := by
    simp only [Server.carryOut, fresh, Option.getD_none]
    rfl
  rw [made] at counted asked rows'
  rw [Keyed.get?_set, if_pos rfl] at asked
  refine ⟨?_, ?_⟩
  · simp only [increment, counted, asked, integer]
    rfl
  · rw [increment_line]
    exact ⟨rows', awaits''⟩

theorem arm_of_awaited_end {window : Span}
    (awaits : line.Awaits (rowName store.space key) "PEXPIRE" trouble)
    (short : window.millis ≤ 9223372036854775807) :
    (∃ e, (store.arm key window line).1 = .error e) ∧
    line.Struck trouble (store.arm key window line).2 := by
  obtain ⟨unread, struck⟩ := awaits.struck (.expire window.millis) rfl
  refine ⟨?_, ?_⟩
  · cases answer : (store.arm key window line).1 with
    | error e => exact ⟨e, rfl⟩
    | ok done =>
        obtain ⟨_, n, set⟩ := arm_eq_ok answer
        exact absurd set (unread n)
  · rw [arm_line short]
    exact struck

end Store

end LinkGuard.Remote
