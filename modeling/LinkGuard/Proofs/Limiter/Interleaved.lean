import LinkGuard.Proofs.Limiter.Lifetime
import Mathlib.Algebra.GroupWithZero.Nat

/-! # Windows among many callers

However the commands of many callers come to the server, and whatever time passes between them, a
row that is there stands as its lifetime says, from the hit that makes it to its end.
-/

namespace LinkGuard.Policy

variable {policy : Policy} {key : String} {hitters armers : List Nat} {store : Remote.Store}
  {crowd : Crowd}

namespace Lifetime

/-- A lifetime goes on, or its row is over and nobody is left to arm it. -/
theorem step (life : policy.Lifetime key (crowd.row store key) crowd.callers hitters armers)
    (coarse : .ofMillis 1 ≤ policy.window) (calm : policy.Calm crowd) (move : Move) :
    let next := policy.interleave store move crowd
    policy.Lifetime key (next.2.row store key) next.2.callers
      (hitters ++ whose (Exchange.counts key) next.1)
      (armers ++ whose (Exchange.arms key) next.1) ∨
    next.2.row store key = none ∧ policy.Lifetime key none next.2.callers [] [] := by
  intro next
  obtain ⟨-, ⟨notes, callers, rows⟩ | ⟨-, moved⟩⟩ := interleave_cases store coarse calm move
  · simp only [next, notes, callers, Crowd.row, rows, Keyed.get?_mapValues?, whose,
      List.filterMap_nil, List.append_nil]
    exact life.pass (fun r found => (calm.sound _ r found).2) move.lapse
  · exact .inl (life.moved coarse calm.sound moved)

theorem pttl_step (life : policy.Lifetime key (crowd.row store key) crowd.callers hitters armers)
    (coarse : .ofMillis 1 ≤ policy.window) (calm : policy.Calm crowd) (move : Move)
    {r r' : Remote.Row} (found : crowd.row store key = some r) (set : r.pttl ≠ -1)
    (found' : (policy.interleave store move crowd).2.row store key = some r') :
    r'.pttl + move.lapse = r.pttl ∧ r'.pttl ≠ -1 := by
  obtain ⟨-, ⟨-, -, rows⟩ | ⟨still, moved⟩⟩ := interleave_cases store coarse calm move
  · have ahead := (calm.sound _ r found).2.resolve_left set
    rw [Crowd.row] at found found'
    rw [rows, Keyed.get?_mapValues?, found, Option.bind_some] at found'
    by_cases alive : move.lapse < r.pttl
    · rw [Remote.Row.after?_of_alive alive] at found'
      obtain rfl := Option.some.inj found'
      simp only
      omega
    · rw [Remote.Row.after?_of_over (by omega) (Int.not_lt.mp alive)] at found'
      cases found'
  · have same := life.pttl_moved moved found set found'
    rw [same, still]
    exact ⟨Int.add_zero _, set⟩

theorem run (life : policy.Lifetime key (crowd.row store key) crowd.callers hitters armers)
    (coarse : .ofMillis 1 ≤ policy.window) (calm : policy.Calm crowd) (moves : List Move)
    (lives : Machine.Throughout (policy.interleave store)
      (fun c => (c.row store key).isSome) moves crowd) :
    let now := Machine.reached (policy.interleave store) moves crowd
    let notes := (Machine.answers (policy.interleave store) moves crowd).flatten
    policy.Lifetime key (now.row store key) now.callers
      (hitters ++ whose (Exchange.counts key) notes)
      (armers ++ whose (Exchange.arms key) notes) := by
  induction moves generalizing crowd hitters armers with
  | nil =>
      simpa only [Machine.reached, Machine.answers, List.flatten_nil, whose, List.filterMap_nil,
        List.append_nil] using life
  | cons move rest ih =>
      obtain ⟨here, later⟩ := lives
      have calm' := (interleave_cases store coarse calm move).1
      rcases life.step coarse calm move with goesOn | ⟨gone, _⟩
      · have last := ih goesOn calm' later
        simp only [Machine.reached, Machine.answers, List.flatten_cons, whose_append,
          ← List.append_assoc]
        exact last
      · rw [gone] at here
        cases here

theorem pttl_run (life : policy.Lifetime key (crowd.row store key) crowd.callers hitters armers)
    (coarse : .ofMillis 1 ≤ policy.window) (calm : policy.Calm crowd) (moves : List Move)
    (lives : Machine.Throughout (policy.interleave store)
      (fun c => (c.row store key).isSome) moves crowd)
    {r r' : Remote.Row} (found : crowd.row store key = some r) (set : r.pttl ≠ -1)
    (found' : (Machine.reached (policy.interleave store) moves crowd).row store key = some r') :
    r'.pttl + ((moves.map Move.lapse).sum : Nat) = r.pttl := by
  induction moves generalizing crowd hitters armers r with
  | nil =>
      rw [Machine.reached, found] at found'
      rw [Option.some.inj found', List.map_nil, List.sum_nil]
      exact Int.add_zero _
  | cons move rest ih =>
      obtain ⟨here, later⟩ := lives
      obtain ⟨left, there⟩ := Option.isSome_iff_exists.mp here
      have calm' := (interleave_cases store coarse calm move).1
      obtain ⟨down, set'⟩ := life.pttl_step coarse calm move found set there
      rcases life.step coarse calm move with goesOn | ⟨gone, _⟩
      · have last := ih goesOn calm' later there set' found'
        rw [List.map_cons, List.sum_cons]
        omega
      · rw [gone] at here
        cases here

end Lifetime

theorem lifetime_reached (coarse : .ofMillis 1 ≤ policy.window) (store : Remote.Store)
    (moves : List Move) (key : String) :
    let crowd := Machine.reached (policy.interleave store) moves .start
    policy.Calm crowd ∧ ∃ hitters armers,
      policy.Lifetime key (crowd.row store key) crowd.callers hitters armers := by
  refine Machine.reached_keeps (policy.interleave store)
    (P := fun crowd => policy.Calm crowd ∧ ∃ hitters armers,
      policy.Lifetime key (crowd.row store key) crowd.callers hitters armers)
    moves ?_ ?_
  · rintro move - crowd ⟨calm, hitters, armers, life⟩
    refine ⟨(interleave_cases store coarse calm move).1, ?_⟩
    rcases life.step coarse calm move with goesOn | ⟨gone, ended⟩
    · exact ⟨_, _, goesOn⟩
    · rw [gone]
      exact ⟨[], [], ended⟩
  · refine ⟨⟨⟨rfl, rfl⟩, .empty, nofun⟩, [], [], rfl, .nil, nofun, nofun, fun i => ?_, rfl, nofun⟩
    exact ⟨fun arming => (nomatch arming), fun again => (nomatch again.1)⟩

/-- Any number of callers give their commands on one server that starts empty, in any order, with
    any time between any two of them. Nobody has a row to arm that is not there. While a row lives,
    those whose hits it has counted are allowed up to the limit and denied beyond it. It has no end
    for just as long as the first of them has yet to arm it, which only the first of them does and
    only once; and from then on it runs down with the time that passes. -/
theorem windows_hold_among_many (policy : Policy) (coarse : .ofMillis 1 ≤ policy.window)
    (store : Remote.Store) (before : List Move) (key : String) :
    let machine := policy.interleave store
    let crowd := Machine.reached machine before .start
    (∀ i : Nat, crowd.callers[i]? = some (policy.arming key) →
      (machine (.tell i) crowd).2.callers[i]? = some (.done (.ok .allow))) ∧
    (crowd.row store key = none →
      (∀ i : Nat, crowd.callers[i]? ≠ some (policy.arming key)) ∧
      ∀ during, Machine.Throughout machine (fun c => (c.row store key).isSome) during crowd →
        let now := Machine.reached machine during crowd
        let notes := (Machine.answers machine during crowd).flatten
        let hitters := whose (Exchange.counts key) notes
        ∀ r, now.row store key = some r →
          (r.count = hitters.length ∧ hitters.Nodup) ∧
          (∀ n i : Nat, hitters[n]? = some i →
            (n < policy.limit →
              now.callers[i]? = some (.done (.ok .allow)) ∨
              now.callers[i]? = some (policy.arming key)) ∧
            (policy.limit ≤ n → ∃ wait, now.callers[i]? = some (.done (.ok (.deny wait))))) ∧
          (∀ i : Nat, now.callers[i]? = some (policy.arming key) ↔
            r.pttl = -1 ∧ hitters[0]? = some i) ∧
          whose (Exchange.arms key) notes = (if r.pttl = -1 then [] else hitters.take 1) ∧
          (r.pttl ≠ -1 → (1 ≤ r.pttl ∧ r.pttl ≤ policy.window.millis) ∧
            ∀ more, Machine.Throughout machine (fun c => (c.row store key).isSome) more now →
              ∀ r', (Machine.reached machine more now).row store key = some r' →
                r'.pttl + ((more.map Move.lapse).sum : Nat) = r.pttl)) := by
  intro machine crowd
  obtain ⟨calm, hitters, armers, life⟩ : policy.Calm crowd ∧
      ∃ hitters armers, policy.Lifetime key (crowd.row store key) crowd.callers hitters armers :=
    lifetime_reached coarse store before key
  constructor
  · intro i own
    obtain ⟨inside, -⟩ := List.getElem?_eq_some_iff.mp own
    obtain ⟨line, told, -⟩ := tell_arming store coarse calm own
    rw [show machine (.tell i) crowd = _ from told]
    exact List.getElem?_set_self inside
  · intro absent
    have nobody := life
    rw [absent] at nobody
    obtain ⟨rfl, rfl⟩ := nobody.of_no_row
    refine ⟨fun i arming => (nomatch ((nobody.outstanding i).mp arming).1), ?_⟩
    intro during lives now notes hitters r found
    have last : policy.Lifetime key (now.row store key) now.callers hitters
        (whose (Exchange.arms key) notes) :=
      life.run coarse calm during lives
    have calm' : policy.Calm now := calm_reached store coarse calm during
    have running := last
    rw [found] at running
    refine ⟨⟨running.counted, running.distinct⟩,
      fun n i nth => ⟨running.first n i nth, running.later n i nth⟩,
      fun i => ?_, ?_, fun set =>
        ⟨⟨(calm'.sound _ r found).2.resolve_left set, running.short r rfl⟩, ?_⟩⟩
    · rw [running.outstanding i, Option.map_some, Option.some.injEq]
    · rw [running.armed, Option.map_some]
      simp only [Option.some.injEq]
    · exact fun more lasts r' found' => last.pttl_run coarse calm' more lasts found set found'

/-- Two callers of a key that lets one through: two windows pass before the first of them arms the
    row, which then runs for a window and no longer. -/
theorem windows_hold_among_two :
    let policy : Policy := ⟨1, .ofSeconds 60, by decide, by decide, by decide⟩
    let store : Remote.Store := ⟨"quota", .ofSeconds 1⟩
    let machine := policy.interleave store
    let before : List Move := [.enter "a", .enter "b", .enter "a", .tell 1]
    let during : List Move := [.tell 0, .pass 120000, .tell 2, .tell 0]
    let crowd := Machine.reached machine before .start
    let now := Machine.reached machine during crowd
    .ofMillis 1 ≤ policy.window ∧ crowd.row store "a" = none ∧
    Machine.Throughout machine (fun c => (c.row store "a").isSome) during crowd ∧
    now.row store "a" = some ⟨2, 60000⟩ ∧
    whose (Exchange.arms "a") (Machine.answers machine during crowd).flatten = [0] ∧
    ∃ wait, now.callers[2]? = some (.done (.ok (.deny wait))) := by
  intro policy store machine before during crowd now
  have coarse : .ofMillis 1 ≤ policy.window := by decide
  have absent : crowd.row store "a" = none := by decide +kernel
  have lives : Machine.Throughout machine (fun c => (c.row store "a").isSome) during crowd := by
    refine ⟨?_, ?_, ?_, ?_, trivial⟩ <;> decide +kernel
  have found : now.row store "a" = some ⟨2, 60000⟩ := by decide +kernel
  have second : (whose (Exchange.counts "a") (Machine.answers machine during crowd).flatten)[1]? =
      some 2 := by
    decide +kernel
  have first : (whose (Exchange.counts "a") (Machine.answers machine during crowd).flatten).take 1 =
      [0] := by
    decide +kernel
  obtain ⟨-, windows⟩ := windows_hold_among_many policy coarse store before "a"
  obtain ⟨-, decided, -, armed, -⟩ := (windows absent).2 during lives _ found
  refine ⟨coarse, absent, lives, found, ?_, (decided 1 2 second).2 (Nat.le_refl _)⟩
  exact armed.trans first

end LinkGuard.Policy
