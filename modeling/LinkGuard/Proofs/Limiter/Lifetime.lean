import LinkGuard.Proofs.Limiter.Crowd

/-! # The lifetime of a row

A row without an end is one whose creator has yet to arm it, and it lasts until then. So the command
that arms a row always comes to the lifetime that it was given for, and nothing else sets the end of
a row.
-/

namespace LinkGuard

/-- A hit of the key that was counted. -/
def Exchange.counts (key : String) : Exchange → Bool
  | ⟨.increment other _, .ok _⟩ => other = key
  | _ => false

/-- The end of the key's row, set. -/
def Exchange.arms (key : String) : Exchange → Bool
  | ⟨.arm other _, .ok _⟩ => other = key
  | _ => false

/-- The callers that such an exchange was noted of, in order. -/
def whose (p : Exchange → Bool) (notes : List (Nat × Exchange)) : List Nat :=
  notes.filterMap fun (i, exchange) => if p exchange then some i else none

theorem whose_singleton (p : Exchange → Bool) (i : Nat) (exchange : Exchange) :
    whose p [(i, exchange)] = if p exchange then [i] else [] := by
  cases holds : p exchange <;> simp [whose, holds]

theorem whose_append (p : Exchange → Bool) (notes more : List (Nat × Exchange)) :
    whose p (notes ++ more) = whose p notes ++ whose p more :=
  List.filterMap_append

theorem of_getElem?_snoc {α : Type} {xs : List α} {last x : α} {n : Nat}
    (found : (xs ++ [last])[n]? = some x) :
    xs[n]? = some x ∨ n = xs.length ∧ x = last := by
  rw [List.getElem?_append] at found
  split at found
  case isTrue => exact .inl found
  case isFalse past =>
    obtain ⟨inside, rfl⟩ := List.getElem?_eq_some_iff.mp found
    rw [List.length_singleton] at inside
    exact .inr ⟨by omega, List.mem_singleton.mp (List.getElem_mem _)⟩

namespace Policy

/-- How the row of a key stands in a lifetime, with those whose hits it has counted and those who
    have set its end. -/
structure Lifetime (policy : Policy) (key : String) (row : Option Remote.Row)
    (callers : List (Plan (Except StoreError Decision))) (hitters armers : List Nat) : Prop where
  counted : (row.map Remote.Row.count).getD 0 = hitters.length
  distinct : hitters.Nodup
  first (n i : Nat) : hitters[n]? = some i → n < policy.limit →
    callers[i]? = some (.done (.ok .allow)) ∨ callers[i]? = some (policy.arming key)
  later (n i : Nat) : hitters[n]? = some i → policy.limit ≤ n →
    ∃ wait, callers[i]? = some (.done (.ok (.deny wait)))
  outstanding (i : Nat) : callers[i]? = some (policy.arming key) ↔
    row.map Remote.Row.pttl = some (-1) ∧ hitters[0]? = some i
  armed : armers = if row.map Remote.Row.pttl = some (-1) then [] else hitters.take 1
  short (r : Remote.Row) : row = some r → r.pttl ≤ policy.window.millis

variable {policy : Policy} {key other : String} {row : Option Remote.Row}
  {callers : List (Plan (Except StoreError Decision))}
  {plan plan' : Plan (Except StoreError Decision)}
  {hitters armers : List Nat} {i : Nat}

namespace Lifetime

theorem standing (life : policy.Lifetime key row callers hitters armers) (member : i ∈ hitters) :
    callers[i]? = some (policy.arming key) ∨
    ∃ decision, callers[i]? = some (.done (.ok decision)) := by
  obtain ⟨n, found⟩ := List.mem_iff_getElem?.mp member
  rcases Nat.lt_or_ge n policy.limit with within | beyond
  · exact (life.first n i found within).symm.imp_right fun allowed => ⟨_, allowed⟩
  · obtain ⟨wait, denied⟩ := life.later n i found beyond
    exact .inr ⟨_, denied⟩

theorem not_mem (life : policy.Lifetime key row callers hitters armers)
    (own : callers[i]? = some plan) (undone : ∀ result, plan ≠ .done result)
    (apart : plan ≠ policy.arming key) : i ∉ hitters := by
  intro member
  rcases life.standing member with arming | ⟨decision, decided⟩
  · rw [own] at arming
    exact apart (Option.some.inj arming)
  · rw [own] at decided
    exact undone _ (Option.some.inj decided)

theorem set (life : policy.Lifetime key row callers hitters armers) (own : callers[i]? = some plan)
    (undone : ∀ result, plan ≠ .done result) (apart : plan ≠ policy.arming key)
    (apart' : plan' ≠ policy.arming key) :
    policy.Lifetime key row (callers.set i plan') hitters armers := by
  have absent := life.not_mem own undone apart
  have inside := (List.getElem?_eq_some_iff.mp own).1
  have spared : ∀ j, j ≠ i → (callers.set i plan')[j]? = callers[j]? := fun j other =>
    List.getElem?_set_ne other.symm
  have others : ∀ n j, hitters[n]? = some j → (callers.set i plan')[j]? = callers[j]? :=
    fun n j found => spared j fun same => absent (same ▸ List.mem_of_getElem? found)
  refine ⟨life.counted, life.distinct, fun n j found within => ?_, fun n j found beyond => ?_,
    fun j => ?_, life.armed, life.short⟩
  · rw [others n j found]
    exact life.first n j found within
  · rw [others n j found]
    exact life.later n j found beyond
  · by_cases here : j = i
    · subst here
      rw [List.getElem?_set_self inside, Option.some.injEq]
      exact ⟨fun arming => absurd arming apart',
        fun ⟨_, head⟩ => absurd (List.mem_of_getElem? head) absent⟩
    · rw [spared j here]
      exact life.outstanding j

theorem entered (life : policy.Lifetime key row callers hitters armers) (other : String) :
    policy.Lifetime key row (callers ++ [policy.allow other]) hitters armers := by
  have kept : ∀ {j : Nat} {plan}, callers[j]? = some plan →
      (callers ++ [policy.allow other])[j]? = some plan := by
    intro j plan found
    rw [List.getElem?_append_left (List.getElem?_eq_some_iff.mp found).1]
    exact found
  refine ⟨life.counted, life.distinct, fun n j found within => ?_, fun n j found beyond => ?_,
    fun j => ?_, life.armed, life.short⟩
  · exact (life.first n j found within).imp kept kept
  · obtain ⟨wait, denied⟩ := life.later n j found beyond
    exact ⟨wait, kept denied⟩
  · rw [← life.outstanding j]
    refine ⟨fun arming => ?_, kept⟩
    rcases of_getElem?_snoc arming with earlier | ⟨-, new⟩
    · exact earlier
    · exact absurd new.symm (policy.allow_ne_arming key other)

theorem of_no_row (life : policy.Lifetime key none callers hitters armers) :
    hitters = [] ∧ armers = [] := by
  have none := life.counted
  have empty : hitters = [] := List.eq_nil_of_length_eq_zero (Int.natCast_eq_zero.mp none.symm)
  refine ⟨empty, ?_⟩
  rw [life.armed, empty]
  rfl

theorem no_row_of_nil (life : policy.Lifetime key row callers [] armers)
    (present : ∀ r ∈ row, 1 ≤ r.count) :
    row = none := by
  have none := life.counted
  cases row with
  | none => rfl
  | some r =>
      have some := present r rfl
      simp only [Option.map_some, Option.getD_some, List.length_nil] at none
      omega

theorem exists_first {r : Remote.Row} (life : policy.Lifetime key (some r) callers hitters armers)
    (present : ∀ r' ∈ some r, 1 ≤ r'.count) : ∃ first rest, hitters = first :: rest := by
  cases hitters with
  | nil => cases life.no_row_of_nil present
  | cons first rest => exact ⟨first, rest, rfl⟩

theorem hitters_snoc (life : policy.Lifetime key row callers hitters armers)
    (own : callers[i]? = some (policy.allow key)) :
    (hitters ++ [i]).Nodup ∧ ∀ n j, (hitters ++ [i])[n]? = some j →
      hitters[n]? = some j ∧ j ≠ i ∨ n = hitters.length ∧ j = i := by
  have absent : i ∉ hitters := life.not_mem own nofun (policy.allow_ne_arming key key)
  constructor
  · rw [List.nodup_append]
    refine ⟨life.distinct, List.pairwise_singleton _ _, fun a member b last => ?_⟩
    rw [List.mem_singleton.mp last]
    exact fun same => absent (same ▸ member)
  · intro n j found
    rcases of_getElem?_snoc found with earlier | last
    · exact .inl ⟨earlier, fun same => absent (same ▸ List.mem_of_getElem? earlier)⟩
    · exact .inr last

/-- After one more hit it is still the first one that has yet to arm the row. -/
theorem outstanding_count (life : policy.Lifetime key row callers hitters armers)
    (present : ∀ r ∈ row, 1 ≤ r.count) (own : callers[i]? = some (policy.allow key))
    (arms : plan' = policy.arming key ↔ hitters = []) (j : Nat) :
    (callers.set i plan')[j]? = some (policy.arming key) ↔
      some ((row.map Remote.Row.pttl).getD (-1)) = some (-1) ∧ (hitters ++ [i])[0]? = some j := by
  have absent : i ∉ hitters := life.not_mem own nofun (policy.allow_ne_arming key key)
  by_cases here : j = i
  · subst here
    rw [List.getElem?_set_self (List.getElem?_eq_some_iff.mp own).1, Option.some.injEq, arms]
    constructor
    · rintro rfl
      obtain rfl := life.no_row_of_nil present
      exact ⟨rfl, rfl⟩
    · rintro ⟨-, head⟩
      cases hitters with
      | nil => rfl
      | cons first rest => exact absurd (Option.some.inj head ▸ List.mem_cons_self) absent
  -- Nobody else could be arming a row that was not there, and one that was there keeps its
  -- creator.
  · rw [List.getElem?_set_ne (Ne.symm here), life.outstanding j]
    cases row with
    | none =>
        obtain ⟨rfl, -⟩ := life.of_no_row
        constructor
        · exact fun none => nomatch none.1
        · exact fun head => absurd (Option.some.inj head.2).symm here
    | some r =>
        obtain ⟨first, rest, rfl⟩ := life.exists_first present
        exact .rfl

theorem count (life : policy.Lifetime key row callers hitters armers)
    (present : ∀ r ∈ row, 1 ≤ r.count) (own : callers[i]? = some (policy.allow key))
    (arms : plan' = policy.arming key ↔ hitters = [])
    (early : hitters.length < policy.limit → plan' = .done (.ok .allow) ∨ plan' = policy.arming key)
    (late : policy.limit ≤ hitters.length → ∃ wait, plan' = .done (.ok (.deny wait))) :
    policy.Lifetime key (some ⟨hitters.length + 1, (row.map Remote.Row.pttl).getD (-1)⟩)
      (callers.set i plan') (hitters ++ [i]) armers := by
  have mine : (callers.set i plan')[i]? = some plan' :=
    List.getElem?_set_self (List.getElem?_eq_some_iff.mp own).1
  have others : ∀ j, j ≠ i → (callers.set i plan')[j]? = callers[j]? := fun j other =>
    List.getElem?_set_ne other.symm
  obtain ⟨distinct, before⟩ := life.hitters_snoc own
  refine ⟨by simp, distinct, fun n j found within => ?_, fun n j found beyond => ?_,
    life.outstanding_count present own arms, ?_, ?_⟩
  · rcases before n j found with ⟨found, other⟩ | ⟨rfl, rfl⟩
    · rw [others j other]
      exact life.first n j found within
    · rw [mine]
      exact (early within).imp (congrArg some) (congrArg some)
  · rcases before n j found with ⟨found, other⟩ | ⟨rfl, rfl⟩
    · rw [others j other]
      exact life.later n j found beyond
    · obtain ⟨wait, denies⟩ := late beyond
      exact ⟨wait, mine.trans (congrArg some denies)⟩
  · cases row with
    | none => exact life.of_no_row.2
    | some r =>
        obtain ⟨first, rest, rfl⟩ := life.exists_first present
        exact life.armed
  · intro r same
    obtain rfl := Option.some.inj same
    cases row with
    | none => exact Int.le_trans (show (-1 : Int) ≤ 0 by decide) (Int.natCast_nonneg _)
    | some r => exact life.short r rfl

theorem arm (life : policy.Lifetime key row callers hitters armers)
    (settable : 1 ≤ policy.window.millis) (own : callers[i]? = some (policy.arming key)) :
    ∃ count, row = some ⟨count, -1⟩ ∧
      policy.Lifetime key (some ⟨count, policy.window.millis⟩)
        (callers.set i (.done (.ok .allow))) hitters (armers ++ [i]) := by
  obtain ⟨unarmed, head⟩ := (life.outstanding i).mp own
  have inside := (List.getElem?_eq_some_iff.mp own).1
  have mine : (callers.set i (.done (.ok .allow)))[i]? = some (.done (.ok .allow)) :=
    List.getElem?_set_self inside
  have others : ∀ j, j ≠ i → (callers.set i (.done (.ok .allow)))[j]? = callers[j]? :=
    fun j other => List.getElem?_set_ne other.symm
  have set : ¬ some (policy.window.millis : Int) = some (-1) := by
    rw [Option.some.injEq]
    omega
  obtain ⟨⟨count, pttl⟩, rfl, rfl⟩ := Option.map_eq_some_iff.mp unarmed
  refine ⟨count, rfl, life.counted, life.distinct, fun n j found within => ?_,
    fun n j found beyond => ?_, fun j => ?_, ?_, ?_⟩
  · by_cases here : j = i
    · subst here
      exact .inl mine
    · rw [others j here]
      exact life.first n j found within
  · obtain ⟨wait, denied⟩ := life.later n j found beyond
    -- Whoever is denied is not the one that arms.
    have other : j ≠ i := by
      rintro rfl
      rw [own] at denied
      cases denied
    exact ⟨wait, (others j other).trans denied⟩
  · refine ⟨fun arming => ?_, fun again => absurd again.1 set⟩
    by_cases here : j = i
    · subst here
      rw [mine] at arming
      cases arming
    · rw [others j here, life.outstanding j, head] at arming
      exact absurd (Option.some.inj arming.2).symm here
  · cases hitters with
    | nil => cases head
    | cons first rest =>
        obtain rfl := Option.some.inj head
        rw [life.armed, if_pos unarmed]
        exact (if_neg set).symm
  · rintro r same
    obtain rfl := Option.some.inj same
    exact Int.le_refl _

/-- A row without an end stays, and one with an end runs down; when it is over, nobody is left to
    arm it. -/
theorem pass (life : policy.Lifetime key row callers hitters armers)
    (lives : ∀ r ∈ row, r.pttl = -1 ∨ 1 ≤ r.pttl) (millis : Nat) :
    policy.Lifetime key (row.bind (Remote.Row.after? millis)) callers hitters armers ∨
    row.bind (Remote.Row.after? millis) = none ∧ policy.Lifetime key none callers [] [] := by
  cases row with
  | none => exact .inl life
  | some r =>
      rcases lives r rfl with unarmed | armed
      · have stays : r.after? millis = some r := by rw [Remote.Row.after?, if_pos (by omega)]
        rw [Option.bind_some, stays]
        exact .inl life
      -- A row that has an end has been armed, so it can go without leaving anybody behind.
      · have set : ¬ (some r).map Remote.Row.pttl = some (-1) := by
          rw [Option.map_some, Option.some.injEq]
          omega
        have nobody : ∀ j, callers[j]? ≠ some (policy.arming key) := fun j arming =>
          set ((life.outstanding j).mp arming).1
        by_cases alive : millis < r.pttl
        · have set' : ¬ (some (r.pttl - millis)) = some (-1) := by
            rw [Option.some.injEq]
            omega
          have whole := life.armed
          rw [if_neg set] at whole
          rw [Option.bind_some, Remote.Row.after?_of_alive alive]
          refine .inl ⟨life.counted, life.distinct, life.first, life.later, fun j => ?_, ?_, ?_⟩
          · exact ⟨fun arming => absurd arming (nobody j), fun again => absurd again.1 set'⟩
          · exact whole.trans (if_neg set').symm
          · rintro left same
            obtain rfl := Option.some.inj same
            have short := life.short r rfl
            simp only
            omega
        · rw [Option.bind_some, Remote.Row.after?_of_over (by omega) (Int.not_lt.mp alive)]
          have nowhere : ∀ n j : Nat, ([] : List Nat)[n]? ≠ some j := by simp
          refine .inr ⟨rfl, rfl, .nil, fun n j found => absurd found (nowhere n j),
            fun n j found => absurd found (nowhere n j), fun j => ?_, rfl,
            fun r same => by cases same⟩
          exact ⟨fun arming => absurd arming (nobody j), fun head => absurd head.2 (nowhere 0 j)⟩

variable {store : Remote.Store} {rows rows' : Keyed Remote.Row}

theorem hit
    (life : policy.Lifetime key (rows.get? (Remote.rowName store.space key)) callers hitters armers)
    (sound : Remote.Sound rows) {hit : Hit} (own : callers[i]? = some (policy.allow key))
    (carried : store.onRows (.increment key policy.window) rows = (.ok hit, rows')) :
    policy.Lifetime key (rows'.get? (Remote.rowName store.space key))
      (callers.set i (policy.afterHit key hit)) (hitters ++ [i]) armers := by
  have present : ∀ r ∈ rows.get? (Remote.rowName store.space key), 1 ≤ r.count := fun r found =>
    (sound _ r found).1
  have positive := policy.limit_pos
  have counted := life.counted
  obtain ⟨-, nth, running⟩ := Remote.Store.hits_of_increment sound carried
  rw [Remote.hits, counted] at nth
  have stands := policy.afterHit_cases key running
  have arms : policy.afterHit key hit = policy.arming key ↔ hitters = [] := by
    constructor
    · intro arming
      rcases stands with ⟨_, first⟩ | ⟨allows, _⟩ | ⟨_, denies, _⟩
      · exact List.eq_nil_of_length_eq_zero (by omega)
      · rw [allows] at arming
        cases arming
      · rw [denies] at arming
        cases arming
    · rintro rfl
      have none := life.no_row_of_nil present
      rw [Remote.Store.increment_of_no_row none] at carried
      obtain ⟨answer, _⟩ := Prod.mk.inj carried
      rw [← Except.ok.inj answer]
      rfl
  have row' : rows'.get? (Remote.rowName store.space key) =
      some ⟨hitters.length + 1,
        ((rows.get? (Remote.rowName store.space key)).map Remote.Row.pttl).getD (-1)⟩ := by
    obtain ⟨-, rfl⟩ := Remote.Store.increment_onRows carried
    rw [Keyed.get?_set, if_pos rfl, ← counted]
    cases rows.get? (Remote.rowName store.space key) <;> rfl
  rw [row']
  refine life.count present own arms (fun early => ?_) fun late => ?_
  · rcases stands with ⟨arming, _⟩ | ⟨allows, _⟩ | ⟨_, _, beyond⟩
    · exact .inr arming
    · exact .inl allows
    · omega
  · rcases stands with ⟨_, first⟩ | ⟨_, within⟩ | ⟨wait, denies, _⟩
    · omega
    · omega
    · exact ⟨wait, denies⟩

theorem moved
    (life : policy.Lifetime key (rows.get? (Remote.rowName store.space key)) callers hitters armers)
    (coarse : .ofMillis 1 ≤ policy.window) (sound : Remote.Sound rows)
    {notes : List (Nat × Exchange)} {callers' : List (Plan (Except StoreError Decision))}
    (moved : policy.Moved store rows callers notes rows' callers') :
    policy.Lifetime key (rows'.get? (Remote.rowName store.space key)) callers'
      (hitters ++ whose (Exchange.counts key) notes)
      (armers ++ whose (Exchange.arms key) notes) := by
  cases moved with
  | idle => simpa only [whose, List.filterMap_nil, List.append_nil] using life
  | entered other =>
      simpa only [whose, List.filterMap_nil, List.append_nil] using life.entered other
  | @refused i other e own =>
      simp only [whose_singleton, Exchange.counts, Exchange.arms, Bool.false_eq_true, if_false,
        List.append_nil]
      exact life.set own nofun (policy.allow_ne_arming key other) nofun
  | @counted i other hit _ own carried =>
      simp only [whose_singleton, Exchange.counts, Exchange.arms, Bool.false_eq_true, if_false,
        List.append_nil, decide_eq_true_eq]
      by_cases same : other = key
      · subst same
        rw [if_pos rfl]
        exact life.hit sound own carried
      · have kept := store.get?_onRows_of_ne (.increment other policy.window) rows
          fun alike => same (Remote.rowName_eq_iff.mp alike)
        rw [carried] at kept
        rw [if_neg same, List.append_nil, kept]
        have running := (Remote.Store.hits_of_increment sound carried).2.2
        exact life.set own nofun (policy.allow_ne_arming key other)
          (afterHit_ne_arming running same)
  | @armed i other _ own carried =>
      simp only [whose_singleton, Exchange.counts, Exchange.arms, Bool.false_eq_true, if_false,
        List.append_nil, decide_eq_true_eq]
      obtain ⟨positive, short⟩ := millis_bounds coarse
      by_cases same : other = key
      · subst same
        obtain ⟨count, found, armed⟩ := life.arm positive own
        rw [Remote.Store.arm_of_row found positive short] at carried
        obtain ⟨_, rfl⟩ := Prod.mk.inj carried
        rw [if_pos rfl, Keyed.get?_set, if_pos rfl]
        exact armed
      · have kept := store.get?_onRows_of_ne (.arm other policy.window) rows
          fun alike => same (Remote.rowName_eq_iff.mp alike)
        rw [carried] at kept
        rw [if_neg same, List.append_nil, kept]
        exact life.set own nofun (fun arming => same (arming_inj.mp arming)) nofun

/-- No caller sets the end of a row that has one. -/
theorem pttl_moved
    (life : policy.Lifetime key (rows.get? (Remote.rowName store.space key)) callers hitters armers)
    {notes : List (Nat × Exchange)} {callers' : List (Plan (Except StoreError Decision))}
    (moved : policy.Moved store rows callers notes rows' callers') {r r' : Remote.Row}
    (found : rows.get? (Remote.rowName store.space key) = some r) (set : r.pttl ≠ -1)
    (found' : rows'.get? (Remote.rowName store.space key) = some r') : r'.pttl = r.pttl := by
  cases moved with
  | idle | entered | refused =>
      rw [found] at found'
      rw [Option.some.inj found']
  | @counted i other hit _ own carried =>
      obtain ⟨-, rfl⟩ := Remote.Store.increment_onRows carried
      rw [Keyed.get?_set] at found'
      split at found'
      case isTrue same =>
        rw [same, found] at found'
        rw [← Option.some.inj found', Option.getD_some]
      case isFalse =>
        rw [found] at found'
        rw [Option.some.inj found']
  | @armed i other _ own carried =>
      have apart : other ≠ key := by
        rintro rfl
        have unarmed := ((life.outstanding i).mp own).1
        rw [found] at unarmed
        exact set (Option.some.inj unarmed)
      have kept := store.get?_onRows_of_ne (.arm other policy.window) rows
        fun alike => apart (Remote.rowName_eq_iff.mp alike)
      rw [carried, found', found] at kept
      rw [Option.some.inj kept]

end Lifetime

end Policy

end LinkGuard
