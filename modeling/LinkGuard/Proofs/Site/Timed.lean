import LinkGuard.Proofs.Counter.Touched
import LinkGuard.Proofs.Run
import LinkGuard.Proofs.Site.Remotes

/-! # Sites over time

Things are asked of a site, and time passes in between. A command at a place changes the store there
and one row of the server at most. A span changes rows only, and all of them by the same rule.
-/

namespace LinkGuard

/-- A span that passes at a site, or something that is asked of it. -/
inductive Timed (ι : Type) where
  | pass (span : Span)
  | act (input : ι)
deriving DecidableEq

/-- The machine with spans between its inputs. A span is answered with nothing. -/
def Machine.overTime {ι α : Type} (machine : Machine ι Site α) : Machine (Timed ι) Site (Option α)
  | .pass span, site => (none, (site.advance span).2)
  | .act input, site =>
    let (answer, site) := machine input site
    (some answer, site)

/-- The space of a store on the server. -/
def Store.space? : Store → Option String
  | remote store _ => some store.space
  | _ => none

namespace Site

/-- The space of the store at a place, if it is on the server. -/
def space? (site : Site) (place : Nat) : Option String := site.stores[place]?.bind Store.space?

/-- What a command at a place leaves as it was. -/
structure Spares (place : Nat) (command : Command) (site site' : Site) : Prop where
  store (other : Nat) : place ≠ other → site'.stores[other]? = site.stores[other]?
  space (other : Nat) : site'.space? other = site.space? other
  nothingLaid : site.server.faults = [] → site'.server.faults = []
  row (name : String) : (∀ space ∈ site.space? place, Remote.rowName space command.key ≠ name) →
    Remote.Server.AgreeAt name site'.server site.server

variable {site : Site} {place : Nat} {store : Remote.Store}

theorem space?_of_remote (has : site.HasRemote place store) :
    site.space? place = some store.space := by
  rw [space?, has.here]
  rfl

theorem tell_spares (store : Store) (now : Instant) (server : Remote.Server) (command : Command) :
    (tell store now server command).2.1.space? = store.space? ∧
      (server.faults = [] → (tell store now server command).2.2.faults = []) ∧
      ∀ name, (∀ space ∈ store.space?, Remote.rowName space command.key ≠ name) →
        Remote.Server.AgreeAt name (tell store now server command).2.2 server := by
  cases store with
  | table table => exact ⟨rfl, id, fun _ _ => ⟨rfl, rfl⟩⟩
  | script script => exact ⟨rfl, id, fun _ _ => ⟨rfl, rfl⟩⟩
  | remote store silent =>
      refine ⟨rfl, fun nothing => ?_, fun name apart => ?_⟩
      · simp only [tell, Remote.Store.handle_line]
        exact Remote.sendAll_nothingLaid nothing _ _
      · exact store.handle_spares command ⟨server, silent⟩ (apart store.space rfl)

theorem handler_spares (place : Nat) (command : Command) (site : Site) :
    site.Spares place command (handler place command site).2 := by
  simp only [handler]
  split
  case h_1 => exact ⟨fun _ _ => rfl, fun _ => rfl, id, fun _ _ => ⟨rfl, rfl⟩⟩
  case h_2 store here =>
    obtain ⟨space, nothingLaid, row⟩ := tell_spares store site.now site.server command
    obtain ⟨inside, _⟩ := List.getElem?_eq_some_iff.mp here
    refine ⟨fun other apart => List.getElem?_set_ne apart, fun other => ?_, nothingLaid,
      fun name apart => ?_⟩
    · by_cases same : place = other
      · subst same
        simp only [space?, List.getElem?_set_self inside, here, Option.bind_some, space]
      · simp only [space?, List.getElem?_set_ne same]
    · refine row name fun space held => apart space ?_
      rw [space?, here]
      exact held

theorem requests_handler (has : site.HasRemote place store) (command : Command) :
    (handler place command site).2.server.requests (Remote.rowName store.space command.key) =
      site.server.requests (Remote.rowName store.space command.key) ++ command.requests := by
  have clear : Remote.Line.Clear ⟨site.server, false⟩ := ⟨rfl, has.nothingLaid⟩
  simp only [handler, has.here, tell, Remote.Store.handle_line]
  exact Remote.requests_sendAll clear _ _

theorem space?_advance (site : Site) (span : Span) (place : Nat) :
    (site.advance span).2.space? place = site.space? place := by
  rw [space?, stores_advance, space?]

theorem requests_advance (site : Site) (span : Span) (name : String) :
    (site.advance span).2.server.requests name = site.server.requests name := by
  rw [server_advance]
  rfl

end Site

end LinkGuard
