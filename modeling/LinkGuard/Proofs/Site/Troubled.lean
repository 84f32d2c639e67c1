import LinkGuard.Proofs.Counter.Trouble
import LinkGuard.Site

/-! # Remote stores in trouble at a site

A store on the server stays where it is, and once its line is silent it stays silent. Its commands
move the server as they do on a line of their own.
-/

namespace LinkGuard.Site

def RemoteAt (site : Site) (place : Nat) (store : Remote.Store) (silent : Bool) : Prop :=
  site.stores[place]? = some (.remote store silent)

/-- What a site is after commands to its remote stores. -/
structure Leads (site site' : Site) : Prop where
  troubled : site'.server.Troubled
  sound : Remote.Sound site'.server.rows
  grows : Remote.Grows site.server.rows site'.server.rows
  kept (place : Nat) (store : Remote.Store) (silent : Bool) : site.RemoteAt place store silent →
    ∃ silent', site'.RemoteAt place store silent' ∧ (silent → silent')

variable {site site' site'' : Site} {place : Nat} {store : Remote.Store} {silent : Bool}

theorem Leads.refl (troubled : site.server.Troubled) (sound : Remote.Sound site.server.rows) :
    site.Leads site :=
  ⟨troubled, sound, .refl _, fun _ _ silent here => ⟨silent, here, id⟩⟩

theorem Leads.trans (first : site.Leads site') (second : site'.Leads site'') :
    site.Leads site'' := by
  refine ⟨second.troubled, second.sound, first.grows.trans second.grows,
    fun place store silent here => ?_⟩
  obtain ⟨silent', here', lasting⟩ := first.kept place store silent here
  obtain ⟨silent'', here'', lasting'⟩ := second.kept place store silent' here'
  exact ⟨silent'', here'', fun mute => lasting' (lasting mute)⟩

/-- The site with another line to the store at a place. -/
def putLine (site : Site) (place : Nat) (store : Remote.Store) (line : Remote.Line) : Site :=
  { site with stores := site.stores.set place (.remote store line.silent), server := line.server }

theorem handler_of_remoteAt (here : site.RemoteAt place store silent) (command : Command) :
    Site.handler place command site =
      ((store.handle command ⟨site.server, silent⟩).1,
        site.putLine place store (store.handle command ⟨site.server, silent⟩).2) := by
  rw [RemoteAt] at here
  simp only [handler, here, tell, putLine]

theorem putLine_self (here : site.RemoteAt place store silent) :
    site.putLine place store ⟨site.server, silent⟩ = site := by
  obtain ⟨inside, found⟩ := List.getElem?_eq_some_iff.mp here
  rw [putLine, ← found, List.set_getElem_self]

theorem remoteAt_putLine (here : site.RemoteAt place store silent) (line : Remote.Line) :
    (site.putLine place store line).RemoteAt place store line.silent := by
  obtain ⟨inside, _⟩ := List.getElem?_eq_some_iff.mp here
  exact List.getElem?_set_self inside

theorem run_of_remoteAt {α : Type} (plan : Plan α) (here : site.RemoteAt place store silent) :
    plan.run (Site.handler place) site =
      ((plan.run store.handle ⟨site.server, silent⟩).1,
        site.putLine place store (plan.run store.handle ⟨site.server, silent⟩).2) := by
  induction plan generalizing site silent with
  | done result => simp only [Plan.run, putLine_self here]
  | ask command next ih =>
      have moved := remoteAt_putLine here (store.handle command ⟨site.server, silent⟩).2
      rw [Plan.run, Plan.run, handler_of_remoteAt here]
      exact (ih _ moved).trans (by simp only [putLine, List.set_set])

theorem handler_leads (here : site.RemoteAt place store silent) (troubled : site.server.Troubled)
    (sound : Remote.Sound site.server.rows) {command : Command} (coarse : command.Coarse) :
    site.Leads (Site.handler place command site).2 := by
  have line : Remote.Line.Leads ⟨site.server, silent⟩ _ :=
    Remote.Store.handle_leads store troubled sound coarse
  rw [handler_of_remoteAt here]
  refine ⟨line.troubled, line.sound, line.grows, fun other store' silent' here' => ?_⟩
  simp only [RemoteAt] at here here' ⊢
  obtain ⟨inside, _⟩ := List.getElem?_eq_some_iff.mp here
  by_cases same : place = other
  · subst same
    rw [here, Option.some.injEq, Store.remote.injEq] at here'
    obtain ⟨rfl, rfl⟩ := here'
    exact ⟨_, List.getElem?_set_self inside, line.lasting⟩
  · exact ⟨silent', (List.getElem?_set_ne same).trans here', id⟩

theorem handler_eq_ok (here : site.RemoteAt place store silent) (troubled : site.server.Troubled)
    (sound : Remote.Sound site.server.rows) {command : Command} {answer : command.Answer}
    (answered : (Site.handler place command site).1 = .ok answer) :
    silent = false ∧ (Site.handler place command site).2.server.faults = site.server.faults ∧
      store.onRows command site.server.rows =
        (.ok answer, (Site.handler place command site).2.server.rows) := by
  rw [handler_of_remoteAt here] at answered ⊢
  obtain ⟨unhurt, carried⟩ := Remote.Store.handle_eq_ok troubled sound answered
  exact ⟨unhurt.heard, unhurt.unused, carried⟩

theorem RemoteAt.advance (here : site.RemoteAt place store silent) (span : Span) :
    (site.advance span).2.RemoteAt place store silent := by
  rw [RemoteAt, stores_advance]
  exact here

theorem troubled_advance (troubled : site.server.Troubled) (span : Span) :
    (site.advance span).2.server.Troubled := by
  rw [server_advance]
  exact troubled

end LinkGuard.Site
