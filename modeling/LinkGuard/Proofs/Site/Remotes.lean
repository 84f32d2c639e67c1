import LinkGuard.Proofs.Counter.Rows
import LinkGuard.Site

/-! # Remote stores at a site

A plan that runs on a remote store which is always answered moves the rows of the server as
`Remote.Store.onRows` says, and leaves the clock alone.
-/

namespace LinkGuard.Site

/-- The store at a place is that remote store, and every request of it is carried out. -/
structure HasRemote (site : Site) (place : Nat) (store : Remote.Store) : Prop where
  here : site.stores[place]? = some (.remote store false)
  nothingLaid : site.server.faults = []

variable {site : Site} {place : Nat} {store : Remote.Store} {α : Type}

theorem handler_of_remote (has : site.HasRemote place store) (command : Command) :
    (Site.handler place command site).1 = (store.onRows command site.server.rows).1 ∧
      (Site.handler place command site).2.server.rows = (store.onRows command site.server.rows).2 ∧
      (Site.handler place command site).2.now = site.now ∧
      (Site.handler place command site).2.HasRemote place store := by
  have clear : Remote.Line.Clear ⟨site.server, false⟩ := ⟨rfl, has.nothingLaid⟩
  obtain ⟨answer, rows, still⟩ := Remote.Store.handle_of_clear store clear command
  obtain ⟨inside, _⟩ := List.getElem?_eq_some_iff.mp has.here
  simp only [handler, has.here, tell, still.heard]
  exact ⟨answer, rows, trivial, List.getElem?_set_self inside, still.nothingLaid⟩

theorem run_of_remote (plan : Plan α) (has : site.HasRemote place store) :
    (plan.run (Site.handler place) site).1 = (plan.run store.onRows site.server.rows).1 ∧
      (plan.run (Site.handler place) site).2.server.rows =
        (plan.run store.onRows site.server.rows).2 ∧
      (plan.run (Site.handler place) site).2.now = site.now ∧
      (plan.run (Site.handler place) site).2.HasRemote place store := by
  have alike : ∀ command (s : Site) rows,
      (s.HasRemote place store ∧ s.server.rows = rows ∧ s.now = site.now) →
      (Site.handler place command s).1 = (store.onRows command rows).1 ∧
        ((Site.handler place command s).2.HasRemote place store ∧
          (Site.handler place command s).2.server.rows = (store.onRows command rows).2 ∧
          (Site.handler place command s).2.now = site.now) := by
    rintro command s _ ⟨has, rfl, clock⟩
    obtain ⟨answer, rows, now, has'⟩ := handler_of_remote has command
    exact ⟨answer, has', rows, now.trans clock⟩
  obtain ⟨answer, has', rows, now⟩ := Plan.run_related alike plan ⟨has, rfl, rfl⟩
  exact ⟨answer, rows, now, has'⟩

theorem rows_advance (site : Site) (span : Span) :
    (site.advance span).2.server.rows =
      site.server.rows.mapValues? (Remote.Row.after? span.millis) :=
  congrArg Remote.Server.rows (site.server_advance span)

theorem HasRemote.advance (has : site.HasRemote place store) (span : Span) :
    (site.advance span).2.HasRemote place store := by
  refine ⟨?_, ?_⟩
  · rw [stores_advance]
    exact has.here
  · rw [server_advance]
    exact has.nothingLaid

end LinkGuard.Site
