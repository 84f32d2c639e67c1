import Mathlib.Data.List.Dedup
import Mathlib.Data.List.Induction
import LinkGuard.Proofs.Counter.Exchange
import LinkGuard.Proofs.Counter.Medium
import LinkGuard.Proofs.Counter.Window
import LinkGuard.Proofs.Run

/-! # What a table holds

A table of this process is told by the commands it was given: which keys it has, and how many hits
an entry has counted. The commands may name any windows, also such as are over at once or end past
the calendar, and the clock may go either way between two of them. Nowhere does an entry stay
without an end.
-/

namespace LinkGuard

namespace Exchange

/-- The key of a hit that was counted. -/
def counted? : Exchange → Option String
  | ⟨.increment key _, .ok _⟩ => some key
  | _ => none

/-- The lifetime that an answer reports. -/
def ttl? : Exchange → Option Ttl
  | ⟨.increment _ _, .ok hit⟩ => some (Hit.ttl hit)
  | ⟨.remaining _, .ok ttl⟩ => some ttl
  | _ => none

end Exchange

namespace Table

/-- Commands to a table, each at the instant that the clock shows then. -/
def obey : Machine (Instant × Command) Table Exchange := fun (now, command) table =>
  let (answer, table) := Table.handle now command table
  (⟨command, answer⟩, table)

/-- A hit of the key is counted that finds no entry of it, or one whose end has come. -/
def Opens (key : String) (call : Instant × Command) (table : Table) : Prop :=
  (obey call table).1.counted? = some key ∧ ∀ w ∈ table.window? key, w.deadline ≤ call.1

/-- So does the command at a place in a run. -/
def OpenedAt (calls : List (Instant × Command)) (key : String) (i : Nat) : Prop :=
  ∃ call, calls[i]? = some call ∧ Opens key call (Machine.reached obey (calls.take i) .empty)

/-- How many hits of the key were counted in a run from a place on. -/
def countedFrom (calls : List (Instant × Command)) (key : String) (i : Nat) : Nat :=
  ((Machine.answers obey calls .empty).drop i).countP fun exchange => exchange.counted? = some key

variable {table : Table} {now : Instant} {command : Command} {key : String}

theorem counted?_obey_iff : (obey (now, command) table).1.counted? = some key ↔
    ∃ window deadline, command = .increment key window ∧ now.add? window = some deadline := by
  cases command with
  | arm | remaining => simp [obey, Exchange.counted?]
  | increment k window =>
      cases ends : now.add? window with
      | none => simp [obey, handle, increment_of_no_end ends, Exchange.counted?, ends]
      | some deadline => simp [obey, handle, increment_of_add? ends, Exchange.counted?, ends]

theorem get?_of_counted (counted : (obey (now, command) table).1.counted? = some key) :
    ∃ deadline, (obey (now, command) table).2.get? key =
      some (Window.next now deadline (table.window? key)).entry := by
  obtain ⟨window, deadline, rfl, ends⟩ := counted?_obey_iff.mp counted
  refine ⟨deadline, ?_⟩
  simp only [obey, handle, increment_of_add? ends]
  rw [Keyed.get?_set, if_pos rfl]

theorem get?_of_not_counted (other : (obey (now, command) table).1.counted? ≠ some key) :
    ∃ keep : Entry → Entry, (obey (now, command) table).2.get? key = (table.get? key).map keep ∧
      ∀ e, (keep e).count = e.count ∧ (e.expiry.isSome → (keep e).expiry.isSome) := by
  by_cases named : command.key = key
  · subst named
    cases command with
    | increment key window =>
        cases ends : now.add? window with
        | some deadline => exact absurd (counted?_obey_iff.mpr ⟨window, deadline, rfl, ends⟩) other
        | none =>
            refine ⟨id, ?_, fun e => ⟨rfl, id⟩⟩
            simp only [obey, handle, increment_of_no_end ends, Option.map_id_fun, id]
    | arm key window =>
        cases ends : now.add? window with
        | some deadline =>
            exact ⟨fun e => ⟨e.count, some deadline⟩, (arm_of_add? ends key table).2,
              fun e => ⟨rfl, fun _ => rfl⟩⟩
        | none =>
            refine ⟨id, ?_, fun e => ⟨rfl, id⟩⟩
            simp only [obey, handle, arm_of_no_end ends, Option.map_id_fun, id]
    | remaining key =>
        exact ⟨id, by simp only [obey, handle, Option.map_id_fun, id], fun e => ⟨rfl, id⟩⟩
  · refine ⟨id, ?_, fun e => ⟨rfl, id⟩⟩
    rw [Option.map_id_fun, id]
    exact get?_handle_of_ne now command table named

section

variable {calls : List (Instant × Command)} {call : Instant × Command} {i : Nat}

theorem OpenedAt.lt (opened : OpenedAt calls key i) : i < calls.length := by
  obtain ⟨call, here, _⟩ := opened
  exact (List.getElem?_eq_some_iff.mp here).1

theorem openedAt_snoc_iff : OpenedAt (calls ++ [call]) key i ↔
    OpenedAt calls key i ∨
    i = calls.length ∧ Opens key call (Machine.reached obey calls .empty) := by
  rcases Nat.lt_trichotomy i calls.length with before | rfl | after
  · have elsewhere : ¬ i = calls.length := Nat.ne_of_lt before
    simp only [OpenedAt, List.getElem?_append_left before,
      List.take_append_of_le_length (Nat.le_of_lt before), elsewhere, false_and, or_false]
  · have beyond : ¬ OpenedAt calls key calls.length := fun opened => Nat.lt_irrefl _ opened.lt
    simp only [beyond, false_or, true_and]
    simp only [OpenedAt, List.getElem?_concat_length, List.take_left, Option.some.injEq,
      exists_eq_left']
  · have beyond : ¬ OpenedAt calls key i := fun opened => Nat.lt_asymm after opened.lt
    have beyond' : ¬ OpenedAt (calls ++ [call]) key i := fun opened => by
      have inside := opened.lt
      rw [List.length_append, List.length_singleton] at inside
      omega
    have elsewhere : ¬ i = calls.length := Nat.ne_of_gt after
    simp only [beyond, beyond', elsewhere, false_and, or_false]

theorem countedFrom_length (calls : List (Instant × Command)) (key : String) :
    countedFrom calls key calls.length = 0 := by
  rw [countedFrom, List.drop_of_length_le (Nat.le_of_eq (Machine.length_answers obey calls _)),
    List.countP_nil]

theorem countedFrom_snoc (inside : i ≤ calls.length) :
    countedFrom (calls ++ [call]) key i = countedFrom calls key i +
      if (obey call (Machine.reached obey calls .empty)).1.counted? = some key then 1 else 0 := by
  rw [← Machine.length_answers obey calls .empty] at inside
  simp only [countedFrom, Machine.answers_append, Machine.answers,
    List.drop_append_of_le_length inside, List.countP_append, List.countP_singleton,
    decide_eq_true_eq]

end

/-- The entry of a key has an end, and has counted the hits since one found none or one whose end
    had come, and none did later. -/
structure Recounted (calls : List (Instant × Command)) (key : String) (e : Entry) : Prop where
  armed : e.expiry.isSome
  counts : 1 ≤ e.count
  since : ∃ i, OpenedAt calls key i ∧ (∀ j, i < j → ¬ OpenedAt calls key j) ∧
    e.count = countedFrom calls key i

/-- What a run says of the entry of a key: no hit was counted, or it is recounted by the run. -/
def Tracks (calls : List (Instant × Command)) (key : String) : Option Entry → Prop
  | none => ∀ exchange ∈ Machine.answers obey calls .empty, exchange.counted? ≠ some key
  | some e => Recounted calls key e

section

variable {calls : List (Instant × Command)} {call : Instant × Command}

theorem Tracks.counted (tracks : Tracks calls key ((Machine.reached obey calls .empty).get? key))
    (counted : (obey call (Machine.reached obey calls .empty)).1.counted? = some key) :
    Tracks (calls ++ [call]) key ((obey call (Machine.reached obey calls .empty)).2.get? key) := by
  obtain ⟨deadline, after⟩ := get?_of_counted counted
  rw [after]
  refine ⟨rfl, Window.one_le_hits_next .., ?_⟩
  rcases Window.running_or_closed call.1 (window? (Machine.reached obey calls .empty) key) with
    ⟨v, here, running⟩ | closed
  · obtain ⟨e, found, stands⟩ := Option.bind_eq_some_iff.mp here
    obtain ⟨_, _, rfl⟩ := Option.map_eq_some_iff.mp stands
    rw [found] at tracks
    obtain ⟨_, _, i, opened, last, same⟩ := tracks
    refine ⟨i, openedAt_snoc_iff.mpr (.inl opened), fun j later again => ?_, ?_⟩
    · rcases openedAt_snoc_iff.mp again with before | ⟨_, _, closed⟩
      · exact last j later before
      · exact Instant.not_lt.mpr (closed _ here) running
    · rw [here, Window.next_of_running running, countedFrom_snoc (Nat.le_of_lt opened.lt),
        if_pos counted, ← same]
      rfl
  · refine ⟨calls.length, openedAt_snoc_iff.mpr (.inr ⟨rfl, counted, closed⟩),
      fun j later again => ?_, ?_⟩
    · have inside := again.lt
      rw [List.length_append, List.length_singleton] at inside
      omega
    · rw [Window.next_of_over closed, countedFrom_snoc (Nat.le_refl _), countedFrom_length,
        if_pos counted]
      rfl

theorem Tracks.not_counted
    (tracks : Tracks calls key ((Machine.reached obey calls .empty).get? key))
    (other : (obey call (Machine.reached obey calls .empty)).1.counted? ≠ some key) :
    Tracks (calls ++ [call]) key ((obey call (Machine.reached obey calls .empty)).2.get? key) := by
  obtain ⟨keep, after, kept⟩ := get?_of_not_counted other
  rw [after]
  cases found : (Machine.reached obey calls .empty).get? key with
  | none =>
      rw [found] at tracks
      intro exchange member
      rw [Machine.answers_append] at member
      rcases List.mem_append.mp member with before | last
      · exact tracks exchange before
      · rw [List.mem_singleton.mp last]
        exact other
  | some e =>
      rw [found] at tracks
      obtain ⟨armed, counts, i, opened, last, same⟩ := tracks
      refine ⟨(kept e).2 armed, (kept e).1 ▸ counts, i, openedAt_snoc_iff.mpr (.inl opened),
        fun j later again => ?_, ?_⟩
      · rcases openedAt_snoc_iff.mp again with before | ⟨_, counted, _⟩
        · exact last j later before
        · exact other counted
      · rw [(kept e).1, countedFrom_snoc (Nat.le_of_lt opened.lt), if_neg other, same]
        rfl

theorem tracks_reached (calls : List (Instant × Command)) (key : String) :
    Tracks calls key ((Machine.reached obey calls .empty).get? key) := by
  induction calls using List.reverseRecOn with
  | nil =>
      intro exchange none
      cases none
  | append_singleton earlier last ih =>
      rw [Machine.reached_append]
      by_cases counted : (obey last (Machine.reached obey earlier .empty)).1.counted? = some key
      · exact ih.counted counted
      · exact ih.not_counted counted

theorem recounted_of_reached {e : Entry}
    (found : (Machine.reached obey calls .empty).get? key = some e) :
    Recounted calls key e := by
  have tracks := tracks_reached calls key
  rwa [found] at tracks

theorem exists_counted_of_openedAt {i : Nat} (opened : OpenedAt calls key i) :
    ∃ exchange ∈ Machine.answers obey calls .empty, exchange.counted? = some key := by
  obtain ⟨call, here, counted, _⟩ := opened
  have there := Machine.answers_getElem? obey calls .empty i
  rw [here, Option.map_some] at there
  exact ⟨_, List.mem_of_getElem? there, counted⟩

theorem get?_reached_isSome_iff (calls : List (Instant × Command)) (key : String) :
    ((Machine.reached obey calls .empty).get? key).isSome ↔
      ∃ exchange ∈ Machine.answers obey calls .empty, exchange.counted? = some key := by
  have tracks := tracks_reached calls key
  cases found : (Machine.reached obey calls .empty).get? key with
  | none =>
      rw [found] at tracks
      exact ⟨nofun, fun ⟨exchange, member, counted⟩ => absurd counted (tracks exchange member)⟩
  | some e =>
      rw [found] at tracks
      obtain ⟨i, opened, _⟩ := tracks.since
      exact ⟨fun _ => exists_counted_of_openedAt opened, fun _ => rfl⟩

theorem size_reached (calls : List (Instant × Command)) :
    (Machine.reached obey calls .empty).size =
      ((Machine.answers obey calls .empty).filterMap Exchange.counted?).dedup.length := by
  have keys : ((Machine.reached obey calls .empty).entries.map Prod.fst).Perm
      ((Machine.answers obey calls .empty).filterMap Exchange.counted?).dedup := by
    apply (List.perm_ext_iff_of_nodup (Machine.reached obey calls .empty).distinct
      (List.nodup_dedup _)).mpr
    intro key
    rw [← Keyed.find_isSome_iff, List.mem_dedup, List.mem_filterMap]
    exact get?_reached_isSome_iff calls key
  rw [← keys.length_eq, List.length_map, Keyed.size]

theorem ttl?_obey (armed : ∀ e ∈ table.get? command.key, e.expiry.isSome) :
    (obey (now, command) table).1.ttl? ≠ some .unarmed := by
  have told (w : Window) : w.entry.ttl now ≠ .unarmed := by
    rw [Entry.ttl_entry]
    split <;> exact Ttl.noConfusion
  cases command with
  | arm key window => simp [obey, Exchange.ttl?]
  | increment key window =>
      cases ends : now.add? window with
      | none => simp [obey, handle, increment_of_no_end ends, Exchange.ttl?]
      | some deadline =>
          simp only [obey, handle, increment_of_add? ends, Exchange.ttl?, Ne, Option.some.injEq]
          exact told _
  | remaining key =>
      simp only [obey, handle, remaining, Exchange.ttl?, Ne, Option.some.injEq]
      cases found : table.get? key with
      | none => exact Ttl.noConfusion
      | some e =>
          obtain ⟨w, rfl⟩ := Entry.eq_entry_of_armed (armed e found)
          exact told w

end

/-- Any commands to a table that starts empty, with any windows and wherever the clock goes. Every
    entry has an end, and has counted the hits since, and with, the last one that found none or one
    whose end had come. The keys are those of the hits that were counted: none is ever lost, and the
    size is their number. A command leaves the entries of other keys alone, and nothing that is
    answered says of a counter that it has no end. -/
theorem entries_recounted (calls : List (Instant × Command)) :
    let answers := Machine.answers obey calls .empty
    let table := Machine.reached obey calls .empty
    (∀ key, ∀ e ∈ table.get? key, e.expiry.isSome ∧ 1 ≤ e.count ∧
      ∃ i, OpenedAt calls key i ∧ (∀ j, i < j → ¬ OpenedAt calls key j) ∧
        e.count = countedFrom calls key i) ∧
    (∀ key, (table.get? key).isSome ↔ ∃ exchange ∈ answers, exchange.counted? = some key) ∧
    (∀ more key, (table.get? key).isSome →
      ((Machine.reached obey (calls ++ more) .empty).get? key).isSome) ∧
    table.size = (answers.filterMap Exchange.counted?).dedup.length ∧
    (∀ now command key, command.key ≠ key →
      (Table.handle now command table).2.get? key = table.get? key) ∧
    ∀ exchange ∈ answers, exchange.ttl? ≠ some .unarmed := by
  intro answers table
  refine ⟨fun key e found => ?_, get?_reached_isSome_iff calls, fun more key => ?_,
    size_reached calls, fun now command key apart => get?_handle_of_ne now command table apart,
    fun exchange member => ?_⟩
  · have tracks := tracks_reached calls key
    rw [Option.mem_def.mp found] at tracks
    exact ⟨tracks.armed, tracks.counts, tracks.since⟩
  · rw [get?_reached_isSome_iff, get?_reached_isSome_iff, Machine.answers_append]
    rintro ⟨exchange, member, counted⟩
    exact ⟨exchange, List.mem_append_left _ member, counted⟩
  · obtain ⟨i, here⟩ := List.mem_iff_getElem?.mp member
    rw [Machine.answers_getElem?] at here
    obtain ⟨call, _, rfl⟩ := Option.map_eq_some_iff.mp here
    apply ttl?_obey
    intro e found
    have tracks := tracks_reached (calls.take i) call.2.key
    rw [Option.mem_def.mp found] at tracks
    exact tracks.armed

end Table

end LinkGuard
