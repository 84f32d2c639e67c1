import LinkGuard.Deployment
import LinkGuard.Proofs.Limiter.Hit

/-! # Tables at a site

A plan that runs on a store kept in a table moves that table and nothing else, so a site may be
looked at as a window for each place and key. Two limiters may sit on one table or on two: their
keys never meet.
-/

namespace LinkGuard

theorem Dimension.key_eq_iff {d e : Dimension} {a b : String} :
    d.key a = e.key b ↔ d = e ∧ a = b := by
  constructor
  · intro same
    have letters := congrArg String.toList same
    cases d <;> cases e <;>
      simp only [key, tag, String.toList_append, List.append_assoc] at letters
    case address.address => exact ⟨rfl, String.toList_inj.mp (by simpa using letters)⟩
    case identity.identity => exact ⟨rfl, String.toList_inj.mp (by simpa using letters)⟩
    case address.identity => simp at letters
    case identity.address => simp at letters
  · rintro ⟨rfl, rfl⟩
    rfl

namespace Site

def table? (site : Site) (place : Nat) : Option Table :=
  match site.stores[place]? with
  | some (.table table) => some table
  | _ => none

def window? (site : Site) (place : Nat) (key : String) : Option Window :=
  (site.table? place).bind fun table => table.window? key

def putTable (site : Site) (place : Nat) (table : Table) : Site :=
  { site with stores := site.stores.set place (.table table) }

variable {site : Site} {place : Nat} {table : Table} {α : Type}

theorem store_of_table (found : site.table? place = some table) :
    site.stores[place]? = some (.table table) := by
  simp only [table?] at found
  split at found
  case h_1 here => rw [here, Option.some.inj found]
  case h_2 => cases found

theorem putTable_self (found : site.table? place = some table) :
    site.putTable place table = site := by
  obtain ⟨inside, here⟩ := List.getElem?_eq_some_iff.mp (store_of_table found)
  rw [putTable, ← here, List.set_getElem_self]

theorem table?_putTable (found : site.table? place = some table) (new : Table) (other : Nat) :
    (site.putTable place new).table? other =
      if place = other then some new else site.table? other := by
  obtain ⟨inside, _⟩ := List.getElem?_eq_some_iff.mp (store_of_table found)
  simp only [table?, putTable, List.getElem?_set, inside, if_true]
  by_cases same : place = other
  · simp only [same, if_true]
  · simp only [same, if_false]

theorem handler_of_table (found : site.table? place = some table) (command : Command) :
    Site.handler place command site =
      ((Table.handle site.now command table).1,
        site.putTable place (Table.handle site.now command table).2) := by
  simp only [handler, store_of_table found, tell, putTable]

theorem run_of_table (plan : Plan α) (found : site.table? place = some table) :
    plan.run (Site.handler place) site =
      ((plan.run (Table.handle site.now) table).1,
        site.putTable place (plan.run (Table.handle site.now) table).2) := by
  induction plan generalizing site table with
  | done result => simp only [Plan.run, putTable_self found]
  | ask command next ih =>
      have moved : (site.putTable place (Table.handle site.now command table).2).table? place =
          some (Table.handle site.now command table).2 := by
        rw [table?_putTable found, if_pos rfl]
      simp only [Plan.run, handler_of_table found, ih _ moved]
      simp only [putTable, List.set_set]

theorem waits_of_table (found : site.table? place = some table) : site.waits place = false := by
  simp only [waits, store_of_table found]

def HasTable (site : Site) (place : Nat) : Prop := (site.table? place).isSome

theorem HasTable.elim (has : site.HasTable place) : ∃ table, site.table? place = some table :=
  Option.isSome_iff_exists.mp has

theorem hasTable_putTable (found : site.table? place = some table) (new : Table) {other : Nat} :
    (site.putTable place new).HasTable other ↔ site.HasTable other := by
  simp only [HasTable, table?_putTable found]
  split
  case isTrue same => simp [← same, found]
  case isFalse => rfl

theorem hasTable_run (has : site.HasTable place) (plan : Plan α) {other : Nat} :
    (plan.run (handler place) site).2.HasTable other ↔ site.HasTable other := by
  obtain ⟨table, found⟩ := has.elim
  rw [run_of_table plan found]
  exact hasTable_putTable found _

theorem now_run (has : site.HasTable place) (plan : Plan α) :
    (plan.run (handler place) site).2.now = site.now := by
  obtain ⟨table, found⟩ := has.elim
  rw [run_of_table plan found]
  rfl

theorem table?_advance (site : Site) (span : Span) (place : Nat) :
    (site.advance span).2.table? place = site.table? place := by
  rw [table?, stores_advance, table?]

theorem window?_advance (site : Site) (span : Span) (place : Nat) (key : String) :
    (site.advance span).2.window? place key = site.window? place key := by
  rw [window?, table?_advance, window?]

theorem hasTable_advance (span : Span) :
    (site.advance span).2.HasTable place ↔ site.HasTable place := by
  rw [HasTable, table?_advance, HasTable]

end Site

namespace Policy

variable {policy : Policy} {site : Site} {place : Nat}

theorem allow_answer_of_table (has : site.HasTable place) (key : String) :
    ((policy.allow key).run (Site.handler place) site).1 =
      (policy.hit site.now (site.window? place key)).1 := by
  obtain ⟨table, found⟩ := has.elim
  simp only [Site.run_of_table _ found, allow_answer, Site.window?, found, Option.bind_some]

theorem window?_allow_of_table (has : site.HasTable place) (key : String) (other : Nat)
    (name : String) :
    ((policy.allow key).run (Site.handler place) site).2.window? other name =
      if place = other ∧ key = name then (policy.hit site.now (site.window? place key)).2
      else site.window? other name := by
  obtain ⟨table, found⟩ := has.elim
  simp only [Site.run_of_table _ found, Site.window?, Site.table?_putTable found]
  by_cases same : place = other
  · subst same
    simp only [if_true, Option.bind_some, window?_allow, found, true_and]
  · simp only [same, if_false, false_and]

theorem cooldown_of_table (has : site.HasTable place) (key : String) :
    ((policy.cooldown key).run (Site.handler place) site).2 = site := by
  obtain ⟨table, found⟩ := has.elim
  rw [Site.run_of_table _ found]
  exact Site.putTable_self found

end Policy

end LinkGuard
