import LinkGuard.Proofs.Counter.Ledger

/-! # A table at the ends of the calendar

A window may be longer than the calendar, and the clock may stand on its first nanosecond or on its
last. Whether a window can be opened, where it ends and what is left of it are told here by sums of
whole numbers: two limits stand in the way of a window, how long a step may be and how far the
calendar reaches, and together they amount to the last nanosecond alone.
-/

namespace LinkGuard.Table

variable {table : Table} {now : Instant} {key : String} {window : Span} {e : StoreError}

theorem increment_eq_error_iff :
    (table.increment now key window).1 = .error e ↔
    e = .windowOutOfRange window ∧ now.add? window = none := by
  cases ends : now.add? window with
  | none => simp [increment_of_no_end ends, eq_comm]
  | some deadline => simp [increment_of_add? ends]

theorem arm_eq_error_iff :
    (table.arm now key window).1 = .error e ↔
    e = .windowOutOfRange window ∧ now.add? window = none := by
  cases ends : now.add? window with
  | none => simp [arm_of_no_end ends, eq_comm]
  | some deadline => simp [(arm_of_add? ends key table).1]

theorem remaining_eq_iff {w : Window} (found : table.get? key = some w.entry) {ttl : Ttl} :
    table.remaining now key = ttl ↔ (w.deadline ≤ now ∧ ttl = .gone) ∨
      ∃ d : Span, ttl = .live d ∧ 0 < d.nanos ∧ (d.nanos : Int) = w.deadline.nanos - now.nanos := by
  simp only [remaining, found, Entry.ttl_entry]
  by_cases running : now < w.deadline
  · have ahead : ¬ w.deadline ≤ now := fun closed => Instant.not_lt.mpr closed running
    rw [if_pos running]
    simp only [ahead, false_and, false_or]
    rw [Instant.lt_iff] at running
    constructor
    · rintro rfl
      exact ⟨_, rfl, by rw [Instant.nanos_since]; omega, by rw [Instant.nanos_since]; omega⟩
    · rintro ⟨d, rfl, _, rest⟩
      congr 1
      ext
      rw [Instant.nanos_since]
      omega
  · have closed := Instant.not_lt.mp running
    rw [if_neg running]
    rw [Instant.le_iff] at closed
    constructor
    · rintro rfl
      exact .inl ⟨closed, rfl⟩
    · rintro (⟨_, rfl⟩ | ⟨d, _, positive, rest⟩)
      · rfl
      · omega

/-- A hit that is counted is told what the table now holds of its key, and holds as long as it is
    asked at once. -/
theorem increment_told {deadline : Instant} (ends : now.add? window = some deadline) (key : String)
    (table : Table) :
    let w := Window.next now deadline (table.window? key)
    let counted := table.increment now key window
    counted.2.get? key = some w.entry ∧
    counted.1 = .ok ⟨w.hits, Table.remaining now key counted.2⟩ := by
  intro w counted
  have held : counted.2.get? key = some w.entry := by
    simp only [counted, increment_of_add? ends]
    rw [Keyed.get?_set, if_pos rfl]
  refine ⟨held, ?_⟩
  rw [remaining, held]
  simp only [counted, increment_of_add? ends]
  rfl

theorem countedFrom_le (calls : List (Instant × Command)) (key : String) (i : Nat) :
    countedFrom calls key i ≤ calls.length := by
  refine Nat.le_trans List.countP_le_length ?_
  rw [List.length_drop, Machine.length_answers]
  exact Nat.sub_le _ _

theorem window_of_reached {calls : List (Instant × Command)} {entry : Entry}
    (found : (Machine.reached obey calls .empty).get? key = some entry) :
    ∃ w : Window, entry = w.entry ∧ w.hits ≤ calls.length := by
  have tracks := tracks_reached calls key
  rw [found] at tracks
  obtain ⟨w, rfl⟩ := Entry.eq_entry_of_armed tracks.armed
  obtain ⟨i, _, _, same⟩ := tracks.since
  exact ⟨w, rfl, Nat.le_trans (Nat.le_of_eq same) (countedFrom_le calls key i)⟩

/-- Any commands to a table that starts empty, with any windows and wherever the clock goes; then a
    hit of a key, or a window armed for it, at any instant. Either is refused if and only if the
    exact end of the window lies past the last nanosecond of the calendar. The refusal names the
    window, and the table stays as it was, whatever it held of the key. Otherwise the window is
    opened or armed up to exactly that end, in seconds and in nanoseconds, and a window that runs
    keeps its own. What is told of a key is the exact rest of its window at any instant; and no
    count is above the number of the commands, so none leaves 64 bits before `2 ^ 64` of them. -/
theorem windows_end_exactly (calls : List (Instant × Command)) (now : Instant) (key : String)
    (window : Span) :
    let table := Machine.reached obey calls .empty
    let counted := table.increment now key window
    let armed := table.arm now key window
    let past := 8210266876799 * 1000000000 + 999999999 < now.nanos + window.nanos
    (∀ e, counted.1 = .error e ↔ e = .windowOutOfRange window ∧ past) ∧
    (∀ e, armed.1 = .error e ↔ e = .windowOutOfRange window ∧ past) ∧
    (past → counted.2 = table ∧ armed.2 = table) ∧
    (¬ past → ∃ deadline : Instant, deadline.nanos = now.nanos + window.nanos ∧
      deadline.second = now.second + window.seconds +
        ((now.subsecond + window.subsecond) / 1000000000 : Nat) ∧
      deadline.subsecond = (now.subsecond + window.subsecond) % 1000000000 ∧
      armed.2.get? key = (table.get? key).map (fun entry => ⟨entry.count, some deadline⟩) ∧
      (∀ w : Window, table.get? key = some w.entry → now < w.deadline →
        counted.2.get? key = some ⟨w.hits + 1, some w.deadline⟩) ∧
      ((∀ w : Window, table.get? key = some w.entry → w.deadline ≤ now) →
        counted.2.get? key = some ⟨1, some deadline⟩) ∧
      ∀ entry, counted.2.get? key = some entry →
        counted.1 = .ok ⟨entry.count, Table.remaining now key counted.2⟩) ∧
    ∀ entry ∈ table.get? key, entry.count ≤ calls.length ∧ ∃ expiry, entry.expiry = some expiry ∧
      ∀ ttl, Table.remaining now key table = ttl ↔ (expiry ≤ now ∧ ttl = .gone) ∨
        ∃ d : Span, ttl = .live d ∧ 0 < d.nanos ∧ (d.nanos : Int) = expiry.nanos - now.nanos := by
  intro table counted armed past
  have past_iff : past ↔ now.add? window = none := Instant.add?_eq_none_iff.symm
  refine ⟨fun e => ?_, fun e => ?_, fun beyond => ?_, fun inside => ?_, fun entry found => ?_⟩
  · rw [past_iff]
    exact increment_eq_error_iff
  · rw [past_iff]
    exact arm_eq_error_iff
  · have endless := past_iff.mp beyond
    exact ⟨congrArg Prod.snd (increment_of_no_end endless key table),
      congrArg Prod.snd (arm_of_no_end endless key table)⟩
  · obtain ⟨deadline, ends⟩ := Option.ne_none_iff_exists'.mp (mt past_iff.mpr inside)
    obtain ⟨held, told⟩ := increment_told ends key table
    have parts := Instant.parts_of_add? ends
    refine ⟨deadline, Instant.add?_eq_some_iff.mp ends, parts.1, parts.2,
      (arm_of_add? ends key table).2, ?_, ?_, ?_⟩
    · intro w here running
      rw [held, window?_eq_some_iff.mpr here, Window.next_of_running running]
      rfl
    · intro closed
      rw [held, Window.next_of_over fun v here => closed v (window?_eq_some_iff.mp here)]
      rfl
    · intro entry here
      obtain rfl := Option.some.inj (held.symm.trans here)
      exact told
  · obtain ⟨w, rfl, few⟩ := window_of_reached found
    exact ⟨few, w.deadline, rfl, fun ttl => remaining_eq_iff found⟩

end LinkGuard.Table
