import LinkGuard.Counter.Remote
import LinkGuard.Proofs.Counter.Plan

/-! # A remote store as its rows

As long as nothing is laid down for a server and its line is not silent, every request is carried
out, and a store on the server is no more than its rows. The rows are told here without the
requests, the record of them or the line.
-/

namespace LinkGuard.Remote

structure Line.Clear (line : Line) : Prop where
  heard : line.silent = false
  nothingLaid : line.server.faults = []

theorem rowName_eq_iff {space a b : String} : rowName space a = rowName space b ↔ a = b := by
  constructor
  · intro same
    have letters := congrArg String.toList same
    simp only [rowName, String.toList_append, List.append_assoc] at letters
    exact String.toList_inj.mp (List.append_cancel_left (List.append_cancel_left letters))
  · rintro rfl
    rfl

/-- What a server says to a count that has no room left. -/
def overflow : StoreError := .refused "ERR increment or decrement would overflow"

namespace Row

variable {row : Row} {millis : Nat}

theorem after?_of_alive (alive : millis < row.pttl) :
    row.after? millis = some ⟨row.count, row.pttl - millis⟩ := by
  rw [after?, if_neg (by omega), if_neg (by omega)]

theorem after?_of_over (armed : 0 ≤ row.pttl) (closed : row.pttl ≤ millis) :
    row.after? millis = none := by
  rw [after?, if_neg (by omega), if_pos closed]

end Row

namespace Server

theorem carryOut_lifetime (rows : Keyed Row) (key : String) :
    carryOut rows key .lifetime = (.integer (((rows.get? key).map Row.pttl).getD (-2)), rows) := by
  simp only [carryOut]
  cases rows.get? key <;> rfl

theorem get?_carryOut_of_ne (rows : Keyed Row) (request : Request) {key name : String}
    (apart : key ≠ name) :
    (carryOut rows key request).2.get? name = rows.get? name := by
  cases request with
  | increment =>
      simp only [carryOut]
      split
      · rw [Keyed.get?_set, if_neg apart]
      · rfl
  | lifetime => rw [carryOut_lifetime]
  | expire millis =>
      simp only [carryOut]
      split
      · rfl
      · split
        · rw [Keyed.get?_erase, if_neg apart.symm]
        · rw [Keyed.get?_set, if_neg apart]

theorem expire_answered (rows : Keyed Row) (key : String) (millis : Int) :
    ∃ n, (carryOut rows key (.expire millis)).1 = .integer n := by
  simp only [carryOut]
  cases rows.get? key with
  | none => exact ⟨0, rfl⟩
  | some row =>
      by_cases closed : millis ≤ 0
      · exact ⟨1, by simp only [closed, if_true]⟩
      · exact ⟨1, by simp only [closed, if_false]⟩

end Server

namespace Store

/-- The store, given the rows alone. -/
def onRows (store : Store) : Handler (Keyed Row)
  | .increment key _, rows =>
    let row := (rows.get? (rowName store.space key)).getD ⟨0, -1⟩
    if row.count < Server.maxCount then
      (.ok ⟨(row.count + 1).toNat, .ofReply row.pttl⟩,
        rows.set (rowName store.space key) ⟨row.count + 1, row.pttl⟩)
    else (.error overflow, rows)
  | .arm key window, rows =>
    if window.millis ≤ 9223372036854775807 then
      (.ok (), (Server.carryOut rows (rowName store.space key) (.expire window.millis)).2)
    else (.error (.windowOutOfRange window), rows)
  | .remaining key, rows =>
    (.ok (.ofReply (((rows.get? (rowName store.space key)).map Row.pttl).getD (-2))), rows)

variable {store : Store} {rows : Keyed Row} {key : String} {window : Span}

theorem increment_of_no_row (none : rows.get? (rowName store.space key) = none) :
    store.onRows (.increment key window) rows =
      (.ok ⟨1, .unarmed⟩, rows.set (rowName store.space key) ⟨1, -1⟩) := by
  simp only [onRows, none, Option.getD_none]
  rfl

theorem increment_of_row {row : Row} (found : rows.get? (rowName store.space key) = some row)
    (room : row.count < Server.maxCount) :
    store.onRows (.increment key window) rows =
      (.ok ⟨(row.count + 1).toNat, .ofReply row.pttl⟩,
        rows.set (rowName store.space key) ⟨row.count + 1, row.pttl⟩) := by
  simp only [onRows, found, Option.getD_some, if_pos room]

theorem increment_of_full_row {row : Row} (found : rows.get? (rowName store.space key) = some row)
    (full : Server.maxCount ≤ row.count) :
    store.onRows (.increment key window) rows = (.error overflow, rows) := by
  simp only [onRows, found, Option.getD_some, if_neg (Int.not_lt.mpr full)]

theorem arm_of_row {row : Row} (found : rows.get? (rowName store.space key) = some row)
    (positive : 1 ≤ window.millis) (short : window.millis ≤ 9223372036854775807) :
    store.onRows (.arm key window) rows =
      (.ok (), rows.set (rowName store.space key) ⟨row.count, window.millis⟩) := by
  have settable : ¬ (window.millis : Int) ≤ 0 := by omega
  simp only [onRows, if_pos short, Server.carryOut, found, if_neg settable]

/-- A lifetime of nothing takes the row away. -/
theorem arm_of_row_for_nothing {row : Row} (found : rows.get? (rowName store.space key) = some row)
    (nothing : window.millis = 0) :
    store.onRows (.arm key window) rows = (.ok (), rows.erase (rowName store.space key)) := by
  have settable : window.millis ≤ 9223372036854775807 := by omega
  have gone : (window.millis : Int) ≤ 0 := by omega
  simp only [onRows, if_pos settable, Server.carryOut, found, if_pos gone]

theorem get?_onRows_of_ne (store : Store) (command : Command) (rows : Keyed Row) {name : String}
    (apart : rowName store.space command.key ≠ name) :
    (store.onRows command rows).2.get? name = rows.get? name := by
  cases command with
  | increment key window =>
      rw [Command.key] at apart
      simp only [onRows]
      split
      · rw [Keyed.get?_set, if_neg apart]
      · rfl
  | arm key window =>
      simp only [onRows]
      split
      case isFalse => rfl
      case isTrue => exact Server.get?_carryOut_of_ne rows _ apart
  | remaining key => rfl

variable {line : Line}

theorem send_of_clear (clear : line.Clear) (row : String) (request : Request) :
    (line.send row request).1 = some (Server.carryOut line.server.rows row request).1 ∧
      (line.send row request).2.server.rows = (Server.carryOut line.server.rows row request).2 ∧
      (line.send row request).2.Clear := by
  have unlaid : (line.server.note row request).faults = [] := clear.nothingLaid
  simp only [Line.send, clear.heard, Bool.false_eq_true, if_false, Server.receive, unlaid,
    Server.takeFault]
  exact ⟨rfl, rfl, rfl, rfl⟩

theorem handle_of_clear (store : Store) (clear : line.Clear) (command : Command) :
    (store.handle command line).1 = (store.onRows command line.server.rows).1 ∧
      (store.handle command line).2.server.rows = (store.onRows command line.server.rows).2 ∧
      (store.handle command line).2.Clear := by
  cases command with
  | increment key window =>
      obtain ⟨counted, rows, clear'⟩ := send_of_clear clear (rowName store.space key) .increment
      obtain ⟨asked, rows', clear''⟩ := send_of_clear clear' (rowName store.space key) .lifetime
      rw [rows, Server.carryOut_lifetime] at asked rows'
      -- The lifetime is asked for even where counting was complained about.
      by_cases room : ((line.server.rows.get? (rowName store.space key)).getD ⟨0, -1⟩).count <
          Server.maxCount
      · simp only [Server.carryOut, room, if_true, Keyed.get?_set, Option.map_some,
          Option.getD_some] at counted asked rows'
        simp only [handle, increment, counted, asked, onRows, room, if_true, integer]
        exact ⟨rfl, rows', clear''⟩
      · simp only [Server.carryOut, room, if_false] at counted asked rows'
        simp only [handle, increment, counted, asked, onRows, room, if_false, integer]
        exact ⟨rfl, rows', clear''⟩
  | arm key window =>
      obtain ⟨set, rows, clear'⟩ :=
        send_of_clear clear (rowName store.space key) (.expire window.millis)
      obtain ⟨n, answered⟩ :=
        Server.expire_answered line.server.rows (rowName store.space key) window.millis
      rw [answered] at set
      simp only [handle, arm, onRows]
      split
      case isFalse => exact ⟨rfl, rfl, clear⟩
      case isTrue =>
        simp only [set, Option.map_some, integer]
        exact ⟨rfl, rows, clear'⟩
  | remaining key =>
      obtain ⟨asked, rows, clear'⟩ := send_of_clear clear (rowName store.space key) .lifetime
      rw [Server.carryOut_lifetime] at asked rows
      simp only [handle, remaining, asked, onRows, Option.map_some, integer]
      exact ⟨rfl, rows, clear'⟩

end Store

end LinkGuard.Remote
