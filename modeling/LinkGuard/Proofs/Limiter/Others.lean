import LinkGuard.Proofs.Limiter.Shared

/-! # What others do

A caller has a name in each dimension and sees the two counters of these names alone. Calls that
name neither may be left out of a run, and where a call has another name than the caller's, any
other such name does as well: what becomes of a call in one dimension never gets into the other.
-/

namespace LinkGuard

variable {α : Type}

namespace PairCall

def name (d : Dimension) : PairCall → String
  | allow address identity => d.pick address identity
  | cooldown address identity => d.pick address identity

/-- A call and one that it may be replaced by: in each dimension both have the name of the caller,
    or neither. -/
inductive StandsFor (names : Dimension → String) : PairCall → PairCall → Prop
  | allow {address identity address' identity' : String}
      (alike : ∀ d, Dimension.pick address identity d = names d ↔
        Dimension.pick address' identity' d = names d) :
      StandsFor names (.allow address identity) (.allow address' identity')
  | cooldown {address identity address' identity' : String}
      (alike : ∀ d, Dimension.pick address identity d = names d ↔
        Dimension.pick address' identity' d = names d) :
      StandsFor names (.cooldown address identity) (.cooldown address' identity')

/-- A run, and what is left of it when calls that do not name the caller are dropped and others are
    replaced. -/
inductive Masks (names : Dimension → String) :
    List (Instant × PairCall) → List (Instant × PairCall) → Prop
  | nil : Masks names [] []
  | dropped {now : Instant} {call : PairCall} {calls calls' : List (Instant × PairCall)}
      (foreign : ∀ d, call.name d ≠ names d) (rest : Masks names calls calls') :
      Masks names ((now, call) :: calls) calls'
  | kept {now : Instant} {call call' : PairCall} {calls calls' : List (Instant × PairCall)}
      (stands : StandsFor names call call') (rest : Masks names calls calls') :
      Masks names ((now, call) :: calls) ((now, call') :: calls')

/-- The calls of a run that name the caller in both dimensions, each with its answer. -/
def heard (names : Dimension → String) (calls : List (Instant × PairCall))
    (answers : List PairAnswer) : List ((Instant × PairCall) × PairAnswer) :=
  (calls.zip answers).filter fun (call, _) => ∀ d, call.2.name d = names d

variable {names : Dimension → String} {call call' : PairCall}

theorem heard_cons (now : Instant) (calls : List (Instant × PairCall)) (answer : PairAnswer)
    (answers : List PairAnswer) :
    heard names ((now, call) :: calls) (answer :: answers) =
      if ∀ d, call.name d = names d then ((now, call), answer) :: heard names calls answers
      else heard names calls answers := by
  simp only [heard, List.zip_cons_cons, List.filter_cons, decide_eq_true_eq]

theorem StandsFor.name_eq_iff (stands : StandsFor names call call') (d : Dimension) :
    call.name d = names d ↔ call'.name d = names d := by
  cases stands with
  | allow alike => exact alike d
  | cooldown alike => exact alike d

theorem StandsFor.eq_of_own (stands : StandsFor names call call')
    (own : ∀ d, call.name d = names d) :
    call = call' := by
  have own' : ∀ d, call'.name d = names d := fun d => (stands.name_eq_iff d).mp (own d)
  have same : ∀ d, call.name d = call'.name d := fun d => (own d).trans (own' d).symm
  cases stands with
  | allow => exact congrArg₂ PairCall.allow (same .address) (same .identity)
  | cooldown => exact congrArg₂ PairCall.cooldown (same .address) (same .identity)

end PairCall

namespace Site

def counter? (site : Site) (place : Nat) (key : String) : Option Entry :=
  (site.table? place).bind fun table => table.get? key

variable {site site' : Site} {place other : Nat} {key key' : String} {plan : Plan α}

theorem counter?_run_of_ne (has : site.HasTable place) (about : plan.About key)
    (apart : ¬ (place = other ∧ key = key')) :
    (plan.run (handler place) site).2.counter? other key' = site.counter? other key' := by
  obtain ⟨table, found⟩ := has.elim
  simp only [run_of_table plan found, counter?, table?_putTable found]
  split
  case isFalse => rfl
  case isTrue here =>
    subst here
    have unlike : key ≠ key' := fun same => apart ⟨rfl, same⟩
    have spared : ∀ command (moved : Table), command.key = key → moved.get? key' = table.get? key' →
        (Table.handle site.now command moved).2.get? key' = table.get? key' :=
    fun command moved named unmoved =>
      (Table.get?_handle_of_ne _ command moved (named ▸ unlike)).trans unmoved
    rw [found, Option.bind_some, Option.bind_some]
    exact about.run_keeps spared rfl

theorem run_alike (has : site.HasTable place) (has' : site'.HasTable place)
    (now : site.now = site'.now) (about : plan.About key)
    (same : site.counter? place key = site'.counter? place key) :
    (plan.run (handler place) site).1 = (plan.run (handler place) site').1 ∧
      (plan.run (handler place) site).2.counter? place key =
        (plan.run (handler place) site').2.counter? place key := by
  obtain ⟨table, found⟩ := has.elim
  obtain ⟨table', found'⟩ := has'.elim
  have alike : Handler.Alike key (fun table table' => table.get? key = table'.get? key)
      (Table.handle site.now) (Table.handle site.now) := by
    intro command table table' named same
    subst named
    exact Table.handle_alike site.now same
  rw [counter?, counter?, found, found', Option.bind_some, Option.bind_some] at same
  obtain ⟨result, after⟩ := about.run_alike alike same
  simp only [run_of_table plan found, run_of_table plan found', counter?, table?_putTable found,
    table?_putTable found', if_true, Option.bind_some, ← now]
  exact ⟨result, after⟩

end Site

namespace PlacedLimiter

/-- The caller with these names finds the same in both sites. -/
structure Agree (placed : PlacedLimiter) (names : Dimension → String) (site site' : Site) :
    Prop where
  tables : placed.OnTables site
  tables' : placed.OnTables site'
  same (d : Dimension) :
    site.counter? (placed.place d) (d.key (names d)) =
      site'.counter? (placed.place d) (d.key (names d))

variable {placed : PlacedLimiter} {names : Dimension → String} {site site' site'' : Site}

namespace Agree

theorem symm (agree : placed.Agree names site site') : placed.Agree names site' site :=
  ⟨agree.tables', agree.tables, fun d => (agree.same d).symm⟩

theorem trans (agree : placed.Agree names site site') (agree' : placed.Agree names site' site'') :
    placed.Agree names site site'' :=
  ⟨agree.tables, agree'.tables', fun d => (agree.same d).trans (agree'.same d)⟩

end Agree

/-- A plan about another name goes past the caller. -/
theorem agree_run (tables : placed.OnTables site) {d : Dimension} {name : String} {plan : Plan α}
    (about : plan.About (d.key name)) (foreign : name ≠ names d) :
    placed.Agree names (plan.run (Site.handler (placed.place d)) site).2 site := by
  refine ⟨fun e => (Site.hasTable_run (tables d) plan).mpr (tables e), tables, fun e => ?_⟩
  apply Site.counter?_run_of_ne (tables d) about
  rintro ⟨_, same⟩
  obtain ⟨rfl, rfl⟩ := Dimension.key_eq_iff.mp same
  exact foreign rfl

namespace Agree

theorem run_own (agree : placed.Agree names site site') (now : site.now = site'.now) {d : Dimension}
    {plan : Plan α} (about : plan.About (d.key (names d))) :
    (plan.run (Site.handler (placed.place d)) site).1 =
      (plan.run (Site.handler (placed.place d)) site').1 ∧
      placed.Agree names (plan.run (Site.handler (placed.place d)) site).2
        (plan.run (Site.handler (placed.place d)) site').2 := by
  obtain ⟨result, after⟩ :=
    Site.run_alike (agree.tables d) (agree.tables' d) now about (agree.same d)
  refine ⟨result, fun e => (Site.hasTable_run (agree.tables d) plan).mpr (agree.tables e),
    fun e => (Site.hasTable_run (agree.tables' d) plan).mpr (agree.tables' e), fun e => ?_⟩
  by_cases here : d = e
  · subst here
    exact after
  · have apart : ¬ (placed.place d = placed.place e ∧ d.key (names d) = e.key (names e)) :=
      fun same => here (Dimension.key_eq_iff.mp same.2).1
    rw [Site.counter?_run_of_ne (agree.tables d) about apart,
      Site.counter?_run_of_ne (agree.tables' d) about apart, agree.same e]

theorem run (agree : placed.Agree names site site') (now : site.now = site'.now) {d : Dimension}
    {plan : String → Plan α} (about : ∀ name, (plan name).About (d.key name)) {name name' : String}
    (alike : name = names d ↔ name' = names d) :
    (name = names d → ((plan name).run (Site.handler (placed.place d)) site).1 =
        ((plan name').run (Site.handler (placed.place d)) site').1) ∧
      placed.Agree names ((plan name).run (Site.handler (placed.place d)) site).2
        ((plan name').run (Site.handler (placed.place d)) site').2 := by
  by_cases own : name = names d
  · obtain ⟨result, after⟩ := agree.run_own now (about (names d))
    rw [alike.mp own, own]
    exact ⟨fun _ => result, after⟩
  · have own' : name' ≠ names d := fun same => own (alike.mpr same)
    have past := agree_run agree.tables (about name) own
    have past' := agree_run agree.tables' (about name') own'
    exact ⟨fun same => absurd same own, (past.trans agree).trans past'.symm⟩

end Agree

section

variable {plan : Dimension → String → Plan α} {name name' : Dimension → String}

theorem agree_runBoth (tables : placed.OnTables site)
    (about : ∀ d name, (plan d name).About (d.key name)) (foreign : ∀ d, name d ≠ names d) :
    placed.Agree names
      (Plan.runBoth (Site.handler placed.addressPlace) (Site.handler placed.identityPlace) []
        (plan .address (name .address)) (plan .identity (name .identity)) site).2 site := by
  have first := agree_run tables (about .address _) (foreign .address)
  have second := agree_run first.tables (about .identity _) (foreign .identity)
  exact second.trans first

theorem Agree.runBoth (agree : placed.Agree names site site') (now : site.now = site'.now)
    (about : ∀ d name, (plan d name).About (d.key name))
    (alike : ∀ d, name d = names d ↔ name' d = names d) :
    let one :=
      Plan.runBoth (Site.handler placed.addressPlace) (Site.handler placed.identityPlace) []
        (plan .address (name .address)) (plan .identity (name .identity)) site
    let other :=
      Plan.runBoth (Site.handler placed.addressPlace) (Site.handler placed.identityPlace) []
        (plan .address (name' .address)) (plan .identity (name' .identity)) site'
    ((∀ d, name d = names d) → one.1 = other.1) ∧ placed.Agree names one.2 other.2 := by
  obtain ⟨result, between⟩ := agree.run now (about .address) (alike .address)
  have now' := (Site.now_run (agree.tables .address) (plan .address (name .address))).trans
    (now.trans (Site.now_run (agree.tables' .address) (plan .address (name' .address))).symm)
  obtain ⟨result', after⟩ := between.run now' (about .identity) (alike .identity)
  exact ⟨fun own => congrArg₂ Prod.mk (result (own .address)) (result' (own .identity)), after⟩

end

variable {call call' : PairCall}

theorem agree_serve (tables : placed.OnTables site) (now : Instant)
    (foreign : ∀ d, call.name d ≠ names d) :
    placed.Agree names (placed.serve (now, call) site).2 site := by
  have tables : placed.OnTables { site with now } := tables
  cases call with
  | allow address identity =>
      have past := agree_runBoth tables
        (fun d name => (placed.policy d).about_allow (d.key name)) foreign
      simp only [serve, allow, allowIn, turns_eq_nil tables]
      exact ⟨past.tables, tables, past.same⟩
  | cooldown address identity =>
      have past := agree_runBoth tables
        (fun d name => (placed.policy d).about_cooldown (d.key name)) foreign
      simp only [serve, cooldown, turns_eq_nil tables]
      exact ⟨past.tables, tables, past.same⟩

/-- A call and one in its stead leave the caller the same, and are answered the same if the call is
    the caller's. -/
theorem Agree.serve (agree : placed.Agree names site site') (now : Instant)
    (stands : PairCall.StandsFor names call call') :
    ((∀ d, call.name d = names d) →
      (placed.serve (now, call) site).1 = (placed.serve (now, call') site').1) ∧
      placed.Agree names (placed.serve (now, call) site).2 (placed.serve (now, call') site').2 := by
  have agree : placed.Agree names { site with now } { site' with now } :=
    ⟨agree.tables, agree.tables', agree.same⟩
  cases stands with
  | allow alike =>
      obtain ⟨result, after⟩ :=
        agree.runBoth rfl (fun d name => (placed.policy d).about_allow (d.key name)) alike
      simp only [PlacedLimiter.serve, allow, allowIn, turns_eq_nil agree.tables,
        turns_eq_nil agree.tables']
      refine ⟨fun own => ?_, after⟩
      exact congrArg
        (fun both => PairAnswer.decision (placed.limiter.settle both.1 both.2)) (result own)
  | cooldown alike =>
      obtain ⟨result, after⟩ :=
        agree.runBoth rfl (fun d name => (placed.policy d).about_cooldown (d.key name)) alike
      simp only [PlacedLimiter.serve, cooldown, turns_eq_nil agree.tables,
        turns_eq_nil agree.tables']
      refine ⟨fun own => ?_, after⟩
      exact congrArg
        (fun both => PairAnswer.wait (placed.limiter.settleWait both.1 both.2)) (result own)

/-- A caller who names an address and an identity gets the same answers to the same calls out of two
    runs from one state if one run is the other without calls of other names, or with other names in
    the place of other names. -/
theorem others_go_unheard (placed : PlacedLimiter) (site : Site) (tables : placed.OnTables site)
    (names : Dimension → String) (calls calls' : List (Instant × PairCall))
    (masks : PairCall.Masks names calls calls') :
    PairCall.heard names calls (Machine.answers placed.serve calls site) =
      PairCall.heard names calls' (Machine.answers placed.serve calls' site) := by
  suffices heard : ∀ site site', placed.Agree names site site' →
      PairCall.heard names calls (Machine.answers placed.serve calls site) =
        PairCall.heard names calls' (Machine.answers placed.serve calls' site') from
    heard site site ⟨tables, tables, fun _ => rfl⟩
  induction masks with
  | nil => exact fun _ _ _ => rfl
  | @dropped now call _ _ foreign _ ih =>
      intro site site' agree
      have other : ¬ ∀ d, call.name d = names d := fun own => foreign .address (own .address)
      rw [Machine.answers, PairCall.heard_cons, if_neg other]
      exact ih _ _ ((agree_serve agree.tables now foreign).trans agree)
  | @kept now call call' _ _ stands _ ih =>
      intro site site' agree
      obtain ⟨same, after⟩ := agree.serve now stands
      rw [Machine.answers, Machine.answers, PairCall.heard_cons, PairCall.heard_cons, ih _ _ after]
      by_cases own : ∀ d, call.name d = names d
      · obtain rfl := stands.eq_of_own own
        rw [same own]
      · have other : ¬ ∀ d, call'.name d = names d :=
          fun own' => own fun d => (stands.name_eq_iff d).mpr (own' d)
        rw [if_neg own, if_neg other]

/-- One call is left out, which has the names of the caller the wrong way round, and one is for
    somebody else. -/
theorem others_go_unheard_by_one :
    let names := Dimension.pick "192.0.2.1" "a"
    let later := Instant.sinceEpoch (.ofSeconds 60)
    let calls := [(.epoch, .allow "192.0.2.1" "a"),
      (.epoch, .allow "a" "192.0.2.1"), (.epoch, .allow "192.0.2.1" "b"),
      (later, .allow "192.0.2.1" "a"), (later, .cooldown "192.0.2.1" "a")]
    let calls' := [(.epoch, .allow "192.0.2.1" "a"), (.epoch, .allow "192.0.2.1" "c"),
      (later, .allow "192.0.2.1" "a"), (later, .cooldown "192.0.2.1" "a")]
    tight.OnTables oneTable ∧ PairCall.Masks names calls calls' ∧
      PairCall.heard names calls (Machine.answers tight.serve calls oneTable) =
        PairCall.heard names calls' (Machine.answers tight.serve calls' oneTable) := by
  intro names later calls calls'
  have masks : PairCall.Masks names calls calls' :=
    .kept (.allow (by decide)) (.dropped (by decide)
      (.kept (.allow (by decide)) (.kept (.allow (by decide))
      (.kept (.cooldown (by decide)) .nil))))
  exact ⟨fresh_oneTable.onTables, masks,
    others_go_unheard tight oneTable fresh_oneTable.onTables names calls calls' masks⟩

end PlacedLimiter

end LinkGuard
