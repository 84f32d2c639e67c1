import LinkGuard.Proofs.Counter.Trouble

/-! # What a command touches

Whatever is laid down for a server, and whether or not the line still carries, a command of a store
is requests under one name. The server neither looks at the row of another name for it nor remembers
a request there.
-/

namespace LinkGuard

/-- What a command asks of the server. -/
def Command.requests : Command → List Remote.Request
  | increment _ _ => [.increment, .lifetime]
  | arm _ window => if window.millis ≤ 9223372036854775807 then [.expire window.millis] else []
  | remaining _ => [.lifetime]

namespace Remote

/-- The requests received under a name, in order. -/
def Server.requests (server : Server) (name : String) : List Request :=
  (server.seen.get? name).getD []

/-- Under this name both servers hold the same row and have received the same requests. -/
structure Server.AgreeAt (name : String) (server server' : Server) : Prop where
  row : server.rows.get? name = server'.rows.get? name
  seen : server.seen.get? name = server'.seen.get? name

/-- None of the requests received under a name since then sets a lifetime. -/
def Server.UnarmedSince (name : String) (server server' : Server) : Prop :=
  ∃ sent, server'.requests name = server.requests name ++ sent ∧ ∀ millis, .expire millis ∉ sent

/-- The line after these requests under a name. -/
def Line.sendAll (line : Line) (name : String) : List Request → Line
  | [] => line
  | request :: rest => (line.send name request).2.sendAll name rest

section

variable {name other : String} {server server' server'' : Server} {line : Line}

theorem Server.AgreeAt.trans (first : AgreeAt name server server')
    (second : AgreeAt name server' server'') :
    AgreeAt name server server'' :=
  ⟨first.row.trans second.row, first.seen.trans second.seen⟩

theorem Server.AgreeAt.requests (agree : AgreeAt name server server') :
    server.requests name = server'.requests name :=
  congrArg (fun seen => Option.getD seen []) agree.seen

theorem Server.AgreeAt.unarmedSince (agree : AgreeAt name server' server) :
    server.UnarmedSince name server' :=
  ⟨[], agree.requests.trans (List.append_nil _).symm, fun _ => List.not_mem_nil⟩

theorem Server.UnarmedSince.trans (first : server.UnarmedSince name server')
    (second : server'.UnarmedSince name server'') : server.UnarmedSince name server'' := by
  obtain ⟨sent, received, none⟩ := first
  obtain ⟨sent', received', none'⟩ := second
  refine ⟨sent ++ sent', by rw [received', received, List.append_assoc], fun millis member => ?_⟩
  rcases List.mem_append.mp member with before | after
  · exact none millis before
  · exact none' millis after

theorem send_spares (line : Line) (request : Request) (apart : name ≠ other) :
    Server.AgreeAt other (line.send name request).2.server line.server := by
  have noted : (line.server.note name request).seen.get? other = line.server.seen.get? other := by
    rw [Server.note, Keyed.get?_set, if_neg apart]
  simp only [Line.send]
  split
  case isTrue => exact ⟨rfl, rfl⟩
  case isFalse =>
    simp only [Server.receive]
    split
    case h_1 => exact ⟨rfl, noted⟩
    case h_2 => exact ⟨rfl, noted⟩
    case h_3 => exact ⟨Server.get?_carryOut_of_ne _ request apart, noted⟩

theorem sendAll_spares (line : Line) (requests : List Request) (apart : name ≠ other) :
    Server.AgreeAt other (line.sendAll name requests).server line.server := by
  induction requests generalizing line with
  | nil => exact ⟨rfl, rfl⟩
  | cons request rest ih => exact (ih _).trans (send_spares line request apart)

theorem send_nothingLaid (nothing : line.server.faults = []) (name : String) (request : Request) :
    (line.send name request).2.server.faults = [] := by
  have unlaid : (line.server.note name request).faults = [] := nothing
  simp only [Line.send]
  split
  · exact nothing
  · simp only [Server.receive, unlaid, Server.takeFault]

theorem sendAll_nothingLaid (nothing : line.server.faults = []) (name : String)
    (requests : List Request) :
    (line.sendAll name requests).server.faults = [] := by
  induction requests generalizing line with
  | nil => exact nothing
  | cons request rest ih => exact ih (send_nothingLaid nothing name request)

/-- A server remembers what it receives, also where it does not carry it out. -/
theorem requests_send (heard : line.silent = false) (name : String) (request : Request) :
    (line.send name request).2.server.requests name = line.server.requests name ++ [request] := by
  have noted : (line.server.note name request).requests name =
      line.server.requests name ++ [request] := by
    rw [Server.requests, Server.note, Keyed.get?_set, if_pos rfl]
    rfl
  simp only [Line.send, heard, Bool.false_eq_true, if_false, Server.receive]
  split
  · exact noted
  · exact noted
  · exact noted

theorem requests_sendAll (clear : line.Clear) (name : String) (requests : List Request) :
    (line.sendAll name requests).server.requests name = line.server.requests name ++ requests := by
  induction requests generalizing line with
  | nil => exact (List.append_nil _).symm
  | cons request rest ih =>
      obtain ⟨_, _, clear'⟩ := Store.send_of_clear clear name request
      rw [Line.sendAll, ih clear', requests_send clear.heard, List.append_assoc,
        List.singleton_append]

end

namespace Store

theorem handle_line (store : Store) (command : Command) (line : Line) :
    (store.handle command line).2 =
      line.sendAll (rowName store.space command.key) command.requests := by
  cases command with
  | increment key window => exact increment_line store key line
  | arm key window =>
      by_cases short : window.millis ≤ 9223372036854775807
      · rw [handle, arm_line short, Command.requests, if_pos short]
        rfl
      · simp only [handle, arm, Command.requests, short, if_false]
        rfl
  | remaining key => exact remaining_line store key line

theorem handle_spares (store : Store) (command : Command) (line : Line) {name : String}
    (apart : rowName store.space command.key ≠ name) :
    Server.AgreeAt name (store.handle command line).2.server line.server := by
  rw [handle_line]
  exact sendAll_spares line command.requests apart

end Store

end Remote

end LinkGuard
