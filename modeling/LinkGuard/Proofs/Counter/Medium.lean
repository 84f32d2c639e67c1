import LinkGuard.Counter.Table
import LinkGuard.Limiter.Policy
import LinkGuard.Proofs.Counter.Alike
import LinkGuard.Proofs.Counter.Rows
import Mathlib.Logic.Function.Basic

/-! # Kinds of stores

A table of this process and a space of rows on a server are two kinds of stores. In both a command
is dealt with at the one counter that it names: what the others hold makes no difference to it, and
it makes none to them.
-/

namespace LinkGuard

/-- A kind of store over time. By the moment of a call time has made something of it, and then it
    answers the limiters of either dimension. It holds its counters under names that it makes of
    their keys. -/
structure Medium (μ σ ν : Type) where
  pass : μ → σ → σ
  handler : μ → Dimension → Handler σ
  counters : σ → Keyed ν
  name : String → String

namespace Medium

/-- Tables of this process. The clock may show anything. -/
def tables : Medium Instant Table Entry where
  pass _ table := table
  handler now _ := Table.handle now
  counters table := table
  name key := key

/-- A space of rows on a server. Between two calls some milliseconds pass. Each dimension may have a
    deadline of its own. -/
def rows (space : String) (deadline : Dimension → Span) : Medium Nat Remote.Line Remote.Row where
  pass millis line := { line with server := line.server.advance millis }
  handler _ d := Remote.Store.handle ⟨space, deadline d⟩
  counters line := line.server.rows
  name := Remote.rowName space

variable {μ σ ν : Type}

/-- In stores that are clear, each counter is on its own. -/
structure Local (m : Medium μ σ ν) (clear : σ → Prop) : Prop where
  names : Function.Injective m.name
  alike (t : μ) (d : Dimension) {command : Command} {s s' : σ} (ready : clear s) (ready' : clear s')
    (same : (m.counters s).get? (m.name command.key) = (m.counters s').get? (m.name command.key)) :
    (m.handler t d command s).1 = (m.handler t d command s').1 ∧
      (m.counters (m.handler t d command s).2).get? (m.name command.key) =
        (m.counters (m.handler t d command s').2).get? (m.name command.key)
  spared (t : μ) (d : Dimension) {command : Command} {s : σ} (ready : clear s) {name : String}
    (apart : m.name command.key ≠ name) :
    (m.counters (m.handler t d command s).2).get? name = (m.counters s).get? name
  kept (t : μ) (d : Dimension) (command : Command) {s : σ} (ready : clear s) :
    clear (m.handler t d command s).2
  passed (t : μ) {s : σ} (ready : clear s) : clear (m.pass t s)
  aged (t : μ) :
    ∃ age : ν → Option ν, ∀ s name,
      (m.counters (m.pass t s)).get? name = ((m.counters s).get? name).bind age

end Medium

namespace Table

variable {table table' : Table} {command : Command}

theorem handle_alike (now : Instant) (same : table.get? command.key = table'.get? command.key) :
    (Table.handle now command table).1 = (Table.handle now command table').1 ∧
      (Table.handle now command table).2.get? command.key =
        (Table.handle now command table').2.get? command.key := by
  cases command with
  | increment key window =>
      rw [Command.key] at same
      simp only [handle, increment, Command.key, same]
      split
      · exact ⟨rfl, same⟩
      · refine ⟨rfl, ?_⟩
        rw [Keyed.get?_set, Keyed.get?_set, if_pos rfl, if_pos rfl]
  | arm key window =>
      rw [Command.key] at same
      simp only [handle, arm, Command.key, same]
      split
      · exact ⟨rfl, same⟩
      · split
        · exact ⟨rfl, same⟩
        · refine ⟨rfl, ?_⟩
          rw [Keyed.get?_set, Keyed.get?_set, if_pos rfl, if_pos rfl]
  | remaining key =>
      rw [Command.key] at same
      simp only [handle, remaining, Command.key, same, and_self]

theorem get?_handle_of_ne (now : Instant) (command : Command) (table : Table) {other : String}
    (apart : command.key ≠ other) :
    (Table.handle now command table).2.get? other = table.get? other := by
  cases command with
  | increment key window =>
      rw [Command.key] at apart
      simp only [handle, increment]
      split
      · rfl
      · rw [Keyed.get?_set, if_neg apart]
  | arm key window =>
      rw [Command.key] at apart
      simp only [handle, arm]
      split
      · rfl
      · split
        · rfl
        · rw [Keyed.get?_set, if_neg apart]
  | remaining key => rfl

end Table

namespace Remote.Store

variable {rows rows' : Keyed Row} {command : Command}

theorem onRows_alike (store : Store)
    (same : rows.get? (rowName store.space command.key) =
      rows'.get? (rowName store.space command.key)) :
    (store.onRows command rows).1 = (store.onRows command rows').1 ∧
      (store.onRows command rows).2.get? (rowName store.space command.key) =
        (store.onRows command rows').2.get? (rowName store.space command.key) := by
  cases command with
  | increment key window =>
      rw [Command.key] at same
      simp only [onRows, Command.key, same]
      split
      · refine ⟨rfl, ?_⟩
        rw [Keyed.get?_set, Keyed.get?_set, if_pos rfl, if_pos rfl]
      · exact ⟨rfl, same⟩
  | arm key window =>
      rw [Command.key] at same
      simp only [onRows, Server.carryOut, Command.key, same]
      split
      case isFalse => exact ⟨rfl, same⟩
      case isTrue =>
        split
        · exact ⟨rfl, same⟩
        · refine ⟨rfl, ?_⟩
          split
          · rw [Keyed.get?_erase, Keyed.get?_erase, if_pos rfl, if_pos rfl]
          · rw [Keyed.get?_set, Keyed.get?_set, if_pos rfl, if_pos rfl]
  | remaining key =>
      rw [Command.key] at same
      simp only [onRows, Command.key, same, and_self]

end Remote.Store

namespace Medium

theorem tables_local : tables.Local fun _ => True where
  names _ _ same := same
  alike now _ _ _ _ _ _ same := Table.handle_alike now same
  spared now _ _ _ _ _ apart := Table.get?_handle_of_ne now _ _ apart
  kept _ _ _ _ _ := trivial
  passed _ _ _ := trivial
  aged _ := ⟨some, fun _ _ => (Option.bind_fun_some _).symm⟩

theorem rows_local (space : String) (deadline : Dimension → Span) :
    (rows space deadline).Local Remote.Line.Clear where
  names _ _ same := Remote.rowName_eq_iff.mp same
  alike _ d command s s' ready ready' same := by
    obtain ⟨answer, rows, _⟩ := Remote.Store.handle_of_clear ⟨space, deadline d⟩ ready command
    obtain ⟨answer', rows', _⟩ := Remote.Store.handle_of_clear ⟨space, deadline d⟩ ready' command
    simp only [Medium.rows, answer, rows, answer', rows']
    exact Remote.Store.onRows_alike ⟨space, deadline d⟩ same
  spared _ d command s ready _ apart := by
    obtain ⟨_, rows, _⟩ := Remote.Store.handle_of_clear ⟨space, deadline d⟩ ready command
    simp only [Medium.rows, rows]
    exact Remote.Store.get?_onRows_of_ne ⟨space, deadline d⟩ command _ apart
  kept _ d command _ ready := (Remote.Store.handle_of_clear ⟨space, deadline d⟩ ready command).2.2
  passed _ _ ready := ⟨ready.heard, ready.nothingLaid⟩
  aged millis := ⟨Remote.Row.after? millis, fun _ _ => Keyed.get?_mapValues? ..⟩

end Medium

end LinkGuard
