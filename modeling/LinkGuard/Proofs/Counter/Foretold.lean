import LinkGuard.Proofs.Counter.Ledger

/-! # What a look at a key foretells

A look at a key measures what is left of its window, and a hit compares the end of the window with
the clock. The two go by different rules and agree to the nanosecond, also where a window was armed
anew, or for nothing, or the clock went back. So a look says what a hit at the same instant would
do: start over, or go on with the window that is there.
-/

namespace LinkGuard

namespace Table

/-- A hit opens a window of its own: it is the first there, has all of it left, and lets it end
    where it should. -/
def StartsOver (now : Instant) (key : String) (window : Span) (table : Table) : Prop :=
  (table.increment now key window).1 = .ok ⟨1, .live window⟩ ∧
    (table.increment now key window).2.get? key = some ⟨1, now.add? window⟩

/-- A hit is one more than the entry of its key has counted. It is told that `d` is left, and leaves
    the end alone. -/
def GoesOn (now : Instant) (key : String) (window d : Span) (table : Table) : Prop :=
  ∃ stored, table.get? key = some stored ∧
    (table.increment now key window).1 = .ok ⟨stored.count + 1, .live d⟩ ∧
    (table.increment now key window).2.get? key = some ⟨stored.count + 1, stored.expiry⟩

section

variable {table : Table} {now : Instant} {key : String} {window : Span}

/-- What is told of a key whose entry has an end: the rest of a window that runs, or that there is
    none. -/
theorem remaining_cases (armed : ∀ e ∈ table.get? key, e.expiry.isSome) (now : Instant) :
    (∃ w, table.window? key = some w ∧ now < w.deadline ∧
      table.remaining now key = .live (w.deadline.since now)) ∨
    (∀ w ∈ table.window? key, w.deadline ≤ now) ∧ table.remaining now key = .gone := by
  rcases Window.running_or_closed now (table.window? key) with ⟨w, here, running⟩ | closed
  · refine .inl ⟨w, here, running, ?_⟩
    simp only [remaining, window?_eq_some_iff.mp here, Entry.ttl_entry, if_pos running]
  · refine .inr ⟨closed, ?_⟩
    cases found : table.get? key with
    | none => simp only [remaining, found]
    | some e =>
        obtain ⟨w, rfl⟩ := Entry.eq_entry_of_armed (armed e found)
        have ended := closed w (window?_eq_some_iff.mpr found)
        simp only [remaining, found, Entry.ttl_entry, if_neg (Instant.not_lt.mpr ended)]

theorem goesOn_of_running {w : Window} (inside : (now.add? window).isSome)
    (here : table.window? key = some w) (running : now < w.deadline) :
    GoesOn now key window (w.deadline.since now) table := by
  obtain ⟨deadline, ends⟩ := Option.isSome_iff_exists.mp inside
  have joined : Window.next now deadline (table.window? key) = ⟨w.deadline, w.hits + 1⟩ := by
    rw [here, Window.next_of_running running]
  refine ⟨w.entry, window?_eq_some_iff.mp here, ?_, ?_⟩
  · rw [increment_of_add? ends, joined, Entry.ttl_entry, if_pos running]
    rfl
  · rw [increment_of_add? ends, joined, Keyed.get?_set, if_pos rfl]
    rfl

theorem startsOver_of_closed (positive : .zero < window) (inside : (now.add? window).isSome)
    (closed : ∀ w ∈ table.window? key, w.deadline ≤ now) : StartsOver now key window table := by
  obtain ⟨deadline, ends⟩ := Option.isSome_iff_exists.mp inside
  have opened : Window.next now deadline (table.window? key) = ⟨deadline, 1⟩ :=
    Window.next_of_over closed
  constructor
  · rw [increment_of_end ends positive, opened, Instant.since_of_add? ends]
  · rw [increment_of_end ends positive, opened, Keyed.get?_set, if_pos rfl, ends]
    rfl

theorem GoesOn.unique {d d' : Span} (goes : GoesOn now key window d table)
    (goes' : GoesOn now key window d' table) : d = d' := by
  obtain ⟨_, _, told, _⟩ := goes
  obtain ⟨_, _, told', _⟩ := goes'
  rw [told] at told'
  injection told' with same
  injection same with _ same
  exact Ttl.live.inj same

theorem StartsOver.not_goesOn (starts : StartsOver now key window table)
    (counts : ∀ e ∈ table.get? key, 1 ≤ e.count) (d : Span) : ¬ GoesOn now key window d table := by
  rintro ⟨stored, found, told, _⟩
  rw [starts.1] at told
  injection told with same
  injection same with first _
  have before := counts stored found
  omega

end

/-- Any commands to a table that starts empty, with any windows and wherever the clock goes; then a
    key is looked at, at any instant, and a window that is not nothing would end inside the
    calendar. The key is told to be gone if and only if a hit with that window would start over:
    count one, report the whole window, and let it end where it should. A span is told to be left,
    and is not nothing, if and only if the hit would go on: count one more than is stored, report
    the same span, and leave the end alone. One of the two is always told. -/
theorem look_foretells_hit (calls : List (Instant × Command)) (now : Instant) (key : String)
    (window : Span) (positive : .zero < window) (inside : (now.add? window).isSome) :
    let table := Machine.reached obey calls .empty
    let told := Table.remaining now key table
    (told = .gone ↔ StartsOver now key window table) ∧
    (∀ d, told = .live d ∧ .zero < d ↔ GoesOn now key window d table) ∧
    (told = .gone ∨ ∃ d, told = .live d ∧ .zero < d) := by
  intro table told
  have armed : ∀ e ∈ Keyed.get? table key, e.expiry.isSome :=
    fun e found => (recounted_of_reached found).armed
  have counts : ∀ e ∈ Keyed.get? table key, 1 ≤ e.count :=
    fun e found => (recounted_of_reached found).counts
  rcases remaining_cases armed now with ⟨w, here, running, left⟩ | ⟨closed, gone⟩
  · have goes := goesOn_of_running inside here running
    have some_left : .zero < w.deadline.since now := by
      rw [Instant.lt_iff] at running
      rw [Span.lt_iff, Span.nanos_zero, Instant.nanos_since]
      omega
    refine ⟨iff_of_false ?_ fun starts => starts.not_goesOn counts _ goes,
      fun d => ⟨?_, fun goes' => ?_⟩, ?_⟩
    · exact fun gone => Ttl.noConfusion (left.symm.trans gone)
    · rintro ⟨live, _⟩
      rwa [← Ttl.live.inj (left.symm.trans live)]
    · obtain rfl := goes.unique goes'
      exact ⟨left, some_left⟩
    · exact .inr ⟨_, left, some_left⟩
  · have starts := startsOver_of_closed positive inside closed
    refine ⟨iff_of_true gone starts,
      fun d => iff_of_false ?_ (starts.not_goesOn counts d), .inl gone⟩
    exact fun live => Ttl.noConfusion (gone.symm.trans live.1)

/-- A window of one nanosecond has ended and was then armed anew for a minute, before the clock went
    back by half of one: a minute and a half is left of it, and the next hit goes on with it,
    however long a window it names. -/
theorem look_foretells_hit_of_rearmed :
    let calls : List (Instant × Command) := [(.epoch, .increment "ip:192.0.2.1" ⟨1⟩),
      (.sinceEpoch (.ofSeconds 60), .arm "ip:192.0.2.1" (.ofSeconds 60))]
    let table := Machine.reached obey calls .empty
    let now := Instant.sinceEpoch (.ofSeconds 30)
    .zero < Span.ofSeconds 3600 ∧ (now.add? (.ofSeconds 3600)).isSome ∧
    Table.remaining now "ip:192.0.2.1" table = .live (.ofSeconds 90) ∧
    GoesOn now "ip:192.0.2.1" (.ofSeconds 3600) (.ofSeconds 90) table ∧
    ¬ StartsOver now "ip:192.0.2.1" (.ofSeconds 3600) table := by
  intro calls table now
  have positive : .zero < Span.ofSeconds 3600 := by decide
  have inside : (now.add? (.ofSeconds 3600)).isSome := by decide
  have left : Table.remaining now "ip:192.0.2.1" table = .live (.ofSeconds 90) := by decide
  obtain ⟨gone, live, _⟩ :=
    look_foretells_hit calls now "ip:192.0.2.1" (.ofSeconds 3600) positive inside
  refine ⟨positive, inside, left, (live _).mp ⟨left, by decide⟩, fun starts => ?_⟩
  exact Ttl.noConfusion (left.symm.trans (gone.mpr starts))

end Table

end LinkGuard
