import LinkGuard.Proofs.Counter.Medium
import LinkGuard.Proofs.Limiter.PairRun

/-! # One store or two

Two limiters that share a store are never in each other's way. The keys of the dimensions do not
meet, so the store is what the limiters would hold in two stores of their own, put together. In what
order the commands of a call come to it makes no difference: on two stores it cannot make any.
-/

namespace LinkGuard

variable {α μ σ τ ν : Type}

/-- Every key has its value in one of two parts, and never one in both. -/
structure Keyed.Joins (whole first second : Keyed α) : Prop where
  apart (key : String) : first.get? key = none ∨ second.get? key = none
  whole (key : String) : whole.get? key = (first.get? key).or (second.get? key)

namespace Policy

theorem about_allow (policy : Policy) (key : String) : (policy.allow key).About key := by
  refine ⟨rfl, fun answer => ?_⟩
  cases answer with
  | error e => trivial
  | ok hit =>
      simp only
      cases policy.judge hit with
      | settled decision => trivial
      | armThenAllow =>
          refine ⟨rfl, fun armed => ?_⟩
          cases armed <;> trivial

theorem about_cooldown (policy : Policy) (key : String) : (policy.cooldown key).About key := by
  refine ⟨rfl, fun answer => ?_⟩
  cases answer <;> trivial

end Policy

namespace PairLimiter

/-- A call on the stores `left` and `right`, whose commands take these turns. -/
def answer (limiter : PairLimiter) (left right : Handler σ) (turns : List Turn) :
    Machine PairCall σ PairAnswer
  | .allow address identity, s =>
    let (decision, s) := limiter.allow left right turns address identity s
    (.decision decision, s)
  | .cooldown address identity, s =>
    let (wait, s) := limiter.cooldown left right turns address identity s
    (.wait wait, s)

/-- The stores in the middle of a call, when its commands have taken these turns. -/
def amid (limiter : PairLimiter) (left right : Handler σ) (turns : List Turn) : PairCall → σ → σ
  | .allow address identity, s =>
    (Plan.stepBoth left right turns (limiter.addressPlan address)
      (limiter.identityPlan identity) s).2
  | .cooldown address identity, s =>
    (Plan.stepBoth left right turns (limiter.address.cooldown (Dimension.address.key address))
      (limiter.identity.cooldown (Dimension.identity.key identity)) s).2

section

variable {left right : Handler σ} {left' right' : Handler τ} {R : σ → τ → Prop} {s : σ} {t : τ}

theorem answer_alike (limiter : PairLimiter)
    (alike : ∀ name, Handler.Alike (Dimension.address.key name) R left left')
    (alike' : ∀ name, Handler.Alike (Dimension.identity.key name) R right right')
    (turns : List Turn) (call : PairCall) (start : R s t) :
    (limiter.answer left right turns call s).1 = (limiter.answer left' right' turns call t).1 ∧
      R (limiter.answer left right turns call s).2
        (limiter.answer left' right' turns call t).2 := by
  cases call with
  | allow address identity =>
      obtain ⟨same, related⟩ :=
        Plan.runBoth_alike (limiter.address.about_allow _) (limiter.identity.about_allow _)
          (alike address) (alike' identity) turns start
      simp only [answer, allow, addressPlan, identityPlan, same]
      exact ⟨trivial, related⟩
  | cooldown address identity =>
      obtain ⟨same, related⟩ := Plan.runBoth_alike (limiter.address.about_cooldown _)
        (limiter.identity.about_cooldown _) (alike address) (alike' identity) turns start
      simp only [answer, cooldown, same]
      exact ⟨trivial, related⟩

theorem amid_alike (limiter : PairLimiter)
    (alike : ∀ name, Handler.Alike (Dimension.address.key name) R left left')
    (alike' : ∀ name, Handler.Alike (Dimension.identity.key name) R right right')
    (turns : List Turn) (call : PairCall) (start : R s t) :
    R (limiter.amid left right turns call s) (limiter.amid left' right' turns call t) := by
  cases call with
  | allow address identity =>
      exact (Plan.stepBoth_alike (limiter.address.about_allow _) (limiter.identity.about_allow _)
        (alike address) (alike' identity) turns start).2
  | cooldown address identity =>
      exact (Plan.stepBoth_alike (limiter.address.about_cooldown _)
        (limiter.identity.about_cooldown _) (alike address) (alike' identity) turns start).2

end

/-- With a store for each dimension the turns of a call make no difference. -/
theorem answer_part (limiter : PairLimiter) (left right : Handler σ) (turns turns' : List Turn)
    (call : PairCall) (stores : Dimension → σ) :
    limiter.answer (left.part .address) (right.part .identity) turns call stores =
      limiter.answer (left.part .address) (right.part .identity) turns' call stores := by
  have apart : Dimension.address ≠ .identity := by decide
  cases call with
  | allow address identity => simp only [answer, allow, Plan.runBoth_part apart]
  | cooldown address identity => simp only [answer, cooldown, Plan.runBoth_part apart]

end PairLimiter

namespace Medium

/-- The calls, with the first of the orders laid down for the commands of each. -/
def onOne {γ : Type} (calls : List (γ × List Turn × List Turn)) : List (γ × List Turn) :=
  calls.map fun (call, turns, _) => (call, turns)

/-- The calls, with the second of the orders. -/
def onTwo {γ : Type} (calls : List (γ × List Turn × List Turn)) : List (γ × List Turn) :=
  calls.map fun (call, _, turns) => (call, turns)

/-- A limiter on one store that both dimensions share. Each call comes at a moment, and its commands
    take their turns. -/
def shared (m : Medium μ σ ν) (limiter : PairLimiter) :
    Machine ((μ × PairCall) × List Turn) σ PairAnswer :=
  fun ((moment, call), turns) s =>
    limiter.answer (m.handler moment .address) (m.handler moment .identity) turns call
      (m.pass moment s)

/-- A limiter on two stores, one for each dimension. -/
def separate (m : Medium μ σ ν) (limiter : PairLimiter) :
    Machine ((μ × PairCall) × List Turn) (Dimension → σ) PairAnswer :=
  fun ((moment, call), turns) stores =>
    limiter.answer ((m.handler moment .address).part .address)
      ((m.handler moment .identity).part .identity) turns call fun d => m.pass moment (stores d)

/-- One store holds what two stores hold, and each of these holds counters of its own dimension
    only. -/
structure Parted (m : Medium μ σ ν) (clear : σ → Prop) (one : σ) (two : Dimension → σ) : Prop where
  ready : clear one
  ready' (d : Dimension) : clear (two d)
  foreign (d : Dimension) (name : String) : (∀ identifier, m.name (d.key identifier) ≠ name) →
    (m.counters (two d)).get? name = none
  whole (name : String) : (m.counters one).get? name =
    ((m.counters (two .address)).get? name).or ((m.counters (two .identity)).get? name)

variable {m : Medium μ σ ν} {clear : σ → Prop} {one : σ} {two : Dimension → σ}

theorem Local.name_eq_iff (self : m.Local clear) {d e : Dimension} {a b : String} :
    m.name (d.key a) = m.name (e.key b) ↔ d = e ∧ a = b :=
  self.names.eq_iff.trans Dimension.key_eq_iff

namespace Parted

theorem absent (parted : m.Parted clear one two) (self : m.Local clear) {d e : Dimension}
    (apart : d ≠ e) (identifier : String) :
    (m.counters (two d)).get? (m.name (e.key identifier)) = none :=
  parted.foreign d _ fun _ same => apart (self.name_eq_iff.mp same).1

theorem own (parted : m.Parted clear one two) (self : m.Local clear) (d : Dimension)
    (identifier : String) :
    (m.counters one).get? (m.name (d.key identifier)) =
      (m.counters (two d)).get? (m.name (d.key identifier)) := by
  rw [parted.whole]
  cases d with
  | address => rw [parted.absent self (d := .identity) (by decide), Option.or_none]
  | identity => rw [parted.absent self (d := .address) (by decide), Option.none_or]

theorem joins (parted : m.Parted clear one two) (self : m.Local clear) :
    (m.counters one).Joins (m.counters (two .address)) (m.counters (two .identity)) := by
  refine ⟨fun name => ?_, parted.whole⟩
  by_cases named : ∃ identifier, m.name (Dimension.address.key identifier) = name
  · obtain ⟨identifier, rfl⟩ := named
    exact .inr (parted.absent self (by decide) identifier)
  · exact .inl (parted.foreign .address name fun identifier same => named ⟨identifier, same⟩)

theorem pass (parted : m.Parted clear one two) (self : m.Local clear) (t : μ) :
    m.Parted clear (m.pass t one) fun d => m.pass t (two d) := by
  obtain ⟨age, aged⟩ := self.aged t
  have apart := (parted.joins self).apart
  refine ⟨self.passed t parted.ready, fun d => self.passed t (parted.ready' d),
    fun d name foreign => ?_, fun name => ?_⟩
  · rw [aged, parted.foreign d name foreign, Option.bind_none]
  · rw [aged, aged, aged, parted.whole]
    rcases apart name with none | none
    · rw [none, Option.none_or, Option.bind_none, Option.none_or]
    · rw [none, Option.or_none, Option.bind_none, Option.or_none]

theorem alike (self : m.Local clear) (t : μ) (d : Dimension) (identifier : String) :
    Handler.Alike (d.key identifier) (m.Parted clear) (m.handler t d) ((m.handler t d).part d) := by
  intro command one two named parted
  have held : (m.counters one).get? (m.name command.key) =
      (m.counters (two d)).get? (m.name command.key) := by
    rw [named, parted.own self]
  obtain ⟨answer, same⟩ := self.alike t d parted.ready (parted.ready' d) held
  refine ⟨answer, self.kept t d command parted.ready, ?_, ?_, fun name => ?_⟩
  · exact (Function.forall_update_iff two fun _ => clear).mpr
      ⟨self.kept t d command (parted.ready' d), fun e _ => parted.ready' e⟩
  · refine (Function.forall_update_iff two fun e s =>
      ∀ name, (∀ identifier, m.name (e.key identifier) ≠ name) →
      (m.counters s).get? name = none).mpr ⟨fun name foreign => ?_, fun e _ => parted.foreign e⟩
    rw [self.spared t d (parted.ready' d) (named ▸ foreign identifier),
      parted.foreign d name foreign]
  · by_cases here : m.name command.key = name
    -- The other store has no such counter, before or after.
    · subst here
      have apart : Dimension.identity ≠ .address := by decide
      rw [same, named]
      cases d with
      | address =>
          simp only [Handler.part_apply, Function.update_self, Function.update_of_ne apart,
            parted.absent self apart, Option.or_none]
      | identity =>
          simp only [Handler.part_apply, Function.update_self, Function.update_of_ne apart.symm,
            parted.absent self apart.symm, Option.none_or]
    · have unmoved : ∀ e, (m.counters (((m.handler t d).part d command two).2 e)).get? name =
          (m.counters (two e)).get? name :=
        (Function.forall_update_iff two fun e s =>
          (m.counters s).get? name = (m.counters (two e)).get? name).mpr
          ⟨self.spared t d (parted.ready' d) here, fun _ _ => rfl⟩
      rw [self.spared t d parted.ready here, parted.whole, unmoved, unmoved]

/-- A call leaves the one store parted, and is answered as on two, in whatever orders its commands
    come to the one and to the two. -/
theorem serve (parted : m.Parted clear one two) (self : m.Local clear) (limiter : PairLimiter)
    (call : μ × PairCall) (turns turns' : List Turn) :
    (m.shared limiter (call, turns) one).1 = (m.separate limiter (call, turns') two).1 ∧
      m.Parted clear (m.shared limiter (call, turns) one).2
        (m.separate limiter (call, turns') two).2 := by
  obtain ⟨moment, call⟩ := call
  simp only [shared, separate, limiter.answer_part _ _ turns' turns]
  exact limiter.answer_alike (alike self moment .address) (alike self moment .identity) turns call
    (parted.pass self moment)

theorem amid (parted : m.Parted clear one two) (self : m.Local clear)
    (limiter : PairLimiter) (moment : μ) (call : PairCall) (turns : List Turn) :
    m.Parted clear
      (limiter.amid (m.handler moment .address) (m.handler moment .identity) turns call
        (m.pass moment one))
      (limiter.amid ((m.handler moment .address).part .address)
        ((m.handler moment .identity).part .identity) turns call
        fun d => m.pass moment (two d)) :=
  limiter.amid_alike (alike self moment .address) (alike self moment .identity) turns call
    (parted.pass self moment)

theorem run (parted : m.Parted clear one two) (self : m.Local clear) (limiter : PairLimiter)
    (calls : List ((μ × PairCall) × List Turn × List Turn)) :
    Machine.answers (m.shared limiter) (onOne calls) one =
      Machine.answers (m.separate limiter) (onTwo calls) two ∧
      m.Parted clear (Machine.reached (m.shared limiter) (onOne calls) one)
        (Machine.reached (m.separate limiter) (onTwo calls) two) := by
  induction calls generalizing one two with
  | nil => exact ⟨rfl, parted⟩
  | cons first rest ih =>
      obtain ⟨call, turns, turns'⟩ := first
      obtain ⟨same, parted'⟩ := parted.serve self limiter call turns turns'
      obtain ⟨alike, last⟩ := ih parted'
      exact ⟨congrArg₂ List.cons same alike, last⟩

end Parted

/-- From a state on, one store does as well as two. Whatever the calls are, and in whatever orders
    the commands of each come to the one and to the two, the answers are the same. The counters of
    the one are at every point those of the two put together: after each call, and in the middle of
    one when equally many commands of each dimension are done. -/
structure DoesForTwo (m : Medium μ σ ν) (limiter : PairLimiter) (start : σ) : Prop where
  answers (calls : List ((μ × PairCall) × List Turn × List Turn)) :
    Machine.answers (m.shared limiter) (onOne calls) start =
      Machine.answers (m.separate limiter) (onTwo calls) fun _ => start
  between (calls : List ((μ × PairCall) × List Turn × List Turn)) :
    let one := Machine.reached (m.shared limiter) (onOne calls) start
    let two := Machine.reached (m.separate limiter) (onTwo calls) fun _ => start
    (m.counters one).Joins (m.counters (two .address)) (m.counters (two .identity))
  amid (calls : List ((μ × PairCall) × List Turn × List Turn)) (moment : μ) (call : PairCall)
    (turns : List Turn) :
    let one := limiter.amid (m.handler moment .address) (m.handler moment .identity) turns call
      (m.pass moment (Machine.reached (m.shared limiter) (onOne calls) start))
    let two := limiter.amid ((m.handler moment .address).part .address)
      ((m.handler moment .identity).part .identity) turns call
      fun d => m.pass moment (Machine.reached (m.separate limiter) (onTwo calls) (fun _ => start) d)
    (m.counters one).Joins (m.counters (two .address)) (m.counters (two .identity))

/-- A store whose counters are on their own does for two, once it holds nothing. -/
theorem Local.doesForTwo (self : m.Local clear) (limiter : PairLimiter) {start : σ}
    (ready : clear start) (nothing : ∀ name, (m.counters start).get? name = none) :
    m.DoesForTwo limiter start := by
  have began : m.Parted clear start fun _ => start := by
    refine ⟨ready, fun _ => ready, fun _ name _ => nothing name, fun name => ?_⟩
    rw [nothing, Option.or_none]
  have reached := fun calls => (began.run self limiter calls).2
  constructor
  · exact fun calls => (began.run self limiter calls).1
  · exact fun calls => (reached calls).joins self
  · exact fun calls moment call turns =>
      ((reached calls).amid self limiter moment call turns).joins self

end Medium

/-- Whatever the policies, and whatever the names and times of the calls: a limiter whose dimensions
    share one table answers as on two tables, and so does one whose dimensions share a space of rows
    on one server that nothing is laid down for, compared with two servers. What is shared is the
    two put together. -/
theorem PairLimiter.dimensions_never_meet (limiter : PairLimiter) :
    Medium.tables.DoesForTwo limiter .empty ∧
      ∀ (space : String) (deadline : Dimension → Span),
        (Medium.rows space deadline).DoesForTwo limiter ⟨.empty, false⟩ :=
  ⟨Medium.tables_local.doesForTwo limiter trivial fun _ => rfl,
    fun space deadline =>
      (Medium.rows_local space deadline).doesForTwo limiter ⟨rfl, rfl⟩ fun _ => rfl⟩

end LinkGuard
