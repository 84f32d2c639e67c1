import LinkGuard.Proofs.Counter.Exchange
import LinkGuard.Proofs.Counter.Medium
import LinkGuard.Proofs.Site.Tables
import LinkGuard.Proofs.Site.Timed
import LinkGuard.Proofs.Site.Troubled

/-! # Spaces on one server

The name of a row is the space of its store and the key, with a colon in between, and colons may
stand in both. Names from two spaces never meet if neither space is the other one, alone or with a
colon and more behind it. Stores in such spaces may share a server: each is answered as if the
server were its own.
-/

namespace LinkGuard

namespace Remote

/-- Neither of two spaces is the other, or begins with the other and a colon. -/
structure Apart (space other : String) : Prop where
  ne : space ≠ other
  outside : ¬ (other ++ ":").toList <+: space.toList
  outside' : ¬ (space ++ ":").toList <+: other.toList

theorem Apart.symm {space other : String} (apart : Apart space other) : Apart other space :=
  ⟨apart.ne.symm, apart.outside', apart.outside⟩

theorem space_cases {space other key key' : String}
    (same : rowName space key = rowName other key') :
    space = other ∨ (space ++ ":").toList <+: other.toList ∨
    (other ++ ":").toList <+: space.toList := by
  have letters := congrArg String.toList same
  simp only [rowName, String.toList_append, List.append_assoc] at letters ⊢
  rcases List.append_eq_append_iff.mp letters with ⟨more, longer, rest⟩ | ⟨more, longer, rest⟩
  · cases more with
    | nil => exact .inl (String.toList_inj.mp (longer.trans (List.append_nil _)).symm)
    | cons c more =>
        obtain ⟨rfl, _⟩ := List.cons.inj rest
        refine .inr (.inl ⟨more, ?_⟩)
        rw [longer, List.append_assoc]
        rfl
  · cases more with
    | nil => exact .inl (String.toList_inj.mp (longer.trans (List.append_nil _)))
    | cons c more =>
        obtain ⟨rfl, _⟩ := List.cons.inj rest
        refine .inr (.inr ⟨more, ?_⟩)
        rw [longer, List.append_assoc]
        rfl

theorem exists_rowName_eq {space other : String} (longer : (space ++ ":").toList <+: other.toList)
    (key : String) :
    ∃ key', rowName space key' = rowName other key := by
  obtain ⟨more, longer⟩ := longer
  refine ⟨rowName (String.ofList more) key, String.toList_inj.mp ?_⟩
  simp only [rowName, String.toList_append, String.toList_ofList, ← longer, List.append_assoc]

/-- Two spaces are apart just when no name belongs to both. -/
theorem apart_iff {space other : String} :
    Apart space other ↔ ∀ key key', rowName space key ≠ rowName other key' := by
  constructor
  · intro apart key key' same
    rcases space_cases same with same | longer | longer
    · exact apart.ne same
    · exact apart.outside' longer
    · exact apart.outside longer
  · intro never
    refine ⟨?_, fun longer => ?_, fun longer => ?_⟩
    · rintro rfl
      exact never "" "" rfl
    · obtain ⟨key, same⟩ := exists_rowName_eq longer ""
      exact never "" key same.symm
    · obtain ⟨key, same⟩ := exists_rowName_eq longer ""
      exact never key "" same

end Remote

namespace Remote.Store

/-- In the space of a store two servers hold the same rows. -/
def Agree (store : Store) (rows rows' : Keyed Row) : Prop :=
  ∀ key, rows.get? (rowName store.space key) = rows'.get? (rowName store.space key)

variable {store : Store} {rows rows' : Keyed Row}

theorem Agree.onRows (agree : store.Agree rows rows') (command : Command) :
    (store.onRows command rows).1 = (store.onRows command rows').1 ∧
      store.Agree (store.onRows command rows).2 (store.onRows command rows').2 := by
  obtain ⟨answer, own⟩ := store.onRows_alike (agree command.key)
  refine ⟨answer, fun key => ?_⟩
  by_cases here : rowName store.space command.key = rowName store.space key
  · rw [← here, own]
  · rw [get?_onRows_of_ne store command rows here,
      get?_onRows_of_ne store command rows' here, agree]

theorem Agree.elapse (agree : store.Agree rows rows') (millis : Nat) :
    store.Agree (rows.mapValues? (Row.after? millis)) (rows'.mapValues? (Row.after? millis)) := by
  intro key
  rw [Keyed.get?_mapValues?, Keyed.get?_mapValues?, agree]

end Remote.Store

namespace Site

/-- A command to the store at a place. -/
def tellAt (place : Nat) : Machine Command Site Exchange := fun command site =>
  let (answer, site) := handler place command site
  (⟨command, answer⟩, site)

/-- Commands to all stores of a site, each beside the place of its store. -/
def tellAny : Machine (Nat × Command) Site Exchange := fun (place, command) => tellAt place command

/-- What the store at a place has of a run: its own commands, and the spans that pass for all. -/
def partAt (place : Nat) : Timed (Nat × Command) → Option (Timed Command)
  | .pass span => some (.pass span)
  | .act (told, command) => if told = place then some (.act command) else none

/-- The stores of a site that are on its server are in spaces that are apart. -/
def SpacesApart (site : Site) : Prop :=
  ∀ place place' space space', place ≠ place' → site.space? place = some space →
    site.space? place' = some space' → Remote.Apart space space'

/-- To its store a site is as good as one with a server of its own. -/
structure AsAlone (place : Nat) (store : Remote.Store) (home : Nat) (site alone : Site) : Prop where
  here : site.HasRemote place store
  home : alone.HasRemote home store
  agree : store.Agree site.server.rows alone.server.rows
  apart : site.SpacesApart

namespace AsAlone

variable {site alone : Site} {place home : Nat} {store : Remote.Store}

theorem pass (as : AsAlone place store home site alone) (span : Span) :
    AsAlone place store home (site.advance span).2 (alone.advance span).2 := by
  refine ⟨as.here.advance span, as.home.advance span, ?_, ?_⟩
  · rw [rows_advance, rows_advance]
    exact as.agree.elapse span.millis
  · simpa only [SpacesApart, space?_advance] using as.apart

theorem spacesApart_handler (apart : site.SpacesApart) (place : Nat) (command : Command) :
    (handler place command site).2.SpacesApart := by
  simpa only [SpacesApart, (handler_spares place command site).space] using apart

theorem own (as : AsAlone place store home site alone) (command : Command) :
    (tellAt place command site).1 = (tellAt home command alone).1 ∧
      AsAlone place store home (tellAt place command site).2 (tellAt home command alone).2 := by
  obtain ⟨answer, rows, _, here⟩ := handler_of_remote as.here command
  obtain ⟨answer', rows', _, home⟩ := handler_of_remote as.home command
  obtain ⟨same, agree⟩ := as.agree.onRows command
  refine ⟨?_, here, home, ?_, spacesApart_handler as.apart place command⟩
  · simp only [tellAt, answer, answer', same]
  · simp only [tellAt, rows, rows']
    exact agree

theorem foreign (as : AsAlone place store home site alone) {told : Nat} (other : told ≠ place)
    (command : Command) :
    AsAlone place store home (tellAt told command site).2 alone := by
  have spares := handler_spares told command site
  have still : (tellAt told command site).2.HasRemote place store :=
    ⟨(spares.store place other).trans as.here.here, spares.nothingLaid as.here.nothingLaid⟩
  refine ⟨still, as.home, ?_, spacesApart_handler as.apart told command⟩
  intro key
  have untouched : Remote.Server.AgreeAt (Remote.rowName store.space key)
      (tellAt told command site).2.server site.server := by
    apply spares.row
    intro space held
    apply Remote.apart_iff.mp
    exact as.apart told place space store.space other held (space?_of_remote as.here)
  exact untouched.row.trans (as.agree key)

end AsAlone

theorem spacesApart_of_two {near far : Remote.Store} (apart : Remote.Apart near.space far.space)
    (now : Instant) (server : Remote.Server) :
    SpacesApart ⟨now, [.remote near false, .remote far false], server⟩ := by
  intro place place' space space' other held held'
  rcases place with _ | _ | place
  · rcases place' with _ | _ | place'
    · exact absurd rfl other
    · obtain rfl := Option.some.inj held
      obtain rfl := Option.some.inj held'
      exact apart
    · cases held'
  · rcases place' with _ | _ | place'
    · obtain rfl := Option.some.inj held
      obtain rfl := Option.some.inj held'
      exact apart.symm
    · exact absurd rfl other
    · cases held'
  · cases held

/-- Where nothing is laid down for a server, and the stores on it are in spaces that are apart, a
    store is answered as it would be alone on a server of its own that holds the same in its space.
    It makes no difference what the other stores are told in between, nor when, and time passes for
    both servers alike. In the one space a command under a dimension and an identifier touches no
    row of another such pair: none is changed, and nothing is asked of it. -/
theorem answered_as_alone {site alone : Site} {place home : Nat} {store : Remote.Store}
    (here : site.HasRemote place store) (apart : site.SpacesApart)
    (there : alone.HasRemote home store)
    (agree : store.Agree site.server.rows alone.server.rows) :
    (∀ steps : List (Timed (Nat × Command)),
      Machine.answersTo (Machine.overTime tellAny) (partAt place) steps site =
        Machine.answers (Machine.overTime (tellAt home)) (steps.filterMap (partAt place)) alone) ∧
    ∀ (command : Command) (line : Remote.Line) (d e : Dimension) (a b : String),
      command.key = d.key a → (d, a) ≠ (e, b) →
        Remote.rowName store.space (e.key b) ≠ Remote.rowName store.space command.key ∧
        Remote.Server.AgreeAt (Remote.rowName store.space (e.key b))
          (store.handle command line).2.server line.server := by
  constructor
  · intro steps
    have start : AsAlone place store home site alone := ⟨here, there, agree, apart⟩
    -- Passing over a step leaves `AsAlone`, and a step that is picked is taken by both sites.
    refine (Machine.run_picked (R := AsAlone place store home) ?_ ?_ steps start).1
    · intro step s t other as
      cases step with
      | pass span => cases other
      | act told =>
          obtain ⟨told, command⟩ := told
          have elsewhere : told ≠ place := by
            rintro rfl
            simp only [partAt, if_true, reduceCtorEq] at other
          exact as.foreign elsewhere command
    · intro step step' s t own as
      cases step with
      | pass span =>
          obtain rfl := Option.some.inj own
          exact ⟨rfl, as.pass span⟩
      | act told =>
          obtain ⟨told, command⟩ := told
          obtain ⟨rfl, rfl⟩ : told = place ∧ Timed.act command = step' := by
            simp only [partAt] at own
            split at own
            case isTrue same => exact ⟨same, Option.some.inj own⟩
            case isFalse => cases own
          obtain ⟨answer, as'⟩ := as.own command
          exact ⟨congrArg some answer, as'⟩
  · intro command line d e a b named distinct
    have apart : Remote.rowName store.space (e.key b) ≠ Remote.rowName store.space command.key := by
      rw [named]
      intro same
      obtain ⟨rfl, rfl⟩ := Dimension.key_eq_iff.mp (Remote.rowName_eq_iff.mp same)
      exact distinct rfl
    exact ⟨apart, store.handle_spares command line apart.symm⟩

/-- Two spaces of which one begins with the other. Both stores count the same key, and the first of
    them is asked for its lifetime a second later. -/
theorem answered_as_alone_of_two :
    let near : Remote.Store := ⟨"verigate", .ofMillis 500⟩
    let far : Remote.Store := ⟨"verigate2", .ofMillis 500⟩
    let site : Site := ⟨.epoch, [.remote near false, .remote far false], .empty⟩
    let alone : Site := ⟨.epoch, [.remote near false], .empty⟩
    let steps : List (Timed (Nat × Command)) :=
      [.act (0, .increment "ip:a" (.ofSeconds 60)), .act (1, .increment "ip:a" (.ofSeconds 60)),
        .act (0, .arm "ip:a" (.ofSeconds 60)), .pass (.ofSeconds 1), .act (0, .remaining "ip:a")]
    site.HasRemote 0 near ∧ site.SpacesApart ∧ alone.HasRemote 0 near ∧
      near.Agree site.server.rows alone.server.rows ∧
      Machine.answersTo (Machine.overTime tellAny) (partAt 0) steps site =
        Machine.answers (Machine.overTime (tellAt 0)) (steps.filterMap (partAt 0)) alone ∧
      Remote.Server.AgreeAt "verigate:email:a"
        (near.handle (.increment "ip:a" (.ofSeconds 60)) ⟨site.server, false⟩).2.server
        site.server := by
  intro near far site alone steps
  have here : site.HasRemote 0 near := ⟨rfl, rfl⟩
  have there : alone.HasRemote 0 near := ⟨rfl, rfl⟩
  have apart : site.SpacesApart :=
    spacesApart_of_two ⟨by decide, by decide, by decide⟩ .epoch .empty
  obtain ⟨same, untouched⟩ := answered_as_alone here apart there fun _ => rfl
  refine ⟨here, apart, there, fun _ => rfl, same steps, ?_⟩
  exact (untouched (.increment "ip:a" (.ofSeconds 60)) ⟨site.server, false⟩ .address .identity
    "a" "a" rfl (by decide)).2

end Site

end LinkGuard
