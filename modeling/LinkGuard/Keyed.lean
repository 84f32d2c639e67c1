/-! # Values under keys

A finite map from texts, in the order in which keys first came, no key twice. `get?` is the view:
every other operation is described by what it does to `get?`.
-/

namespace LinkGuard

@[ext] structure Keyed (α : Type) where
  entries : List (String × α)
  distinct : (entries.map Prod.fst).Nodup

namespace Keyed

variable {α : Type}

def empty : Keyed α := ⟨[], .nil⟩

/-- The value of the first entry with that key. -/
def find (key : String) : List (String × α) → Option α
  | [] => none
  | (k, v) :: rest => if k = key then some v else find key rest

def get? (m : Keyed α) (key : String) : Option α := find key m.entries

def size (m : Keyed α) : Nat := m.entries.length

def isEmpty (m : Keyed α) : Bool := m.entries.isEmpty

/-- The entries with `value` under `key`, in its old place if it had one. -/
def put (key : String) (value : α) : List (String × α) → List (String × α)
  | [] => [(key, value)]
  | (k, v) :: rest => if k = key then (key, value) :: rest else (k, v) :: put key value rest

theorem mem_keys_put {key : String} {value : α} {entries : List (String × α)} {other : String} :
    other ∈ (put key value entries).map Prod.fst → other = key ∨ other ∈ entries.map Prod.fst := by
  induction entries with
  | nil => simp [put]
  | cons e rest ih =>
      intro h
      simp only [put] at h
      split at h <;> grind

theorem distinct_put (key : String) (value : α) {entries : List (String × α)}
    (h : (entries.map Prod.fst).Nodup) : ((put key value entries).map Prod.fst).Nodup := by
  induction entries with
  | nil => simp [put]
  | cons e rest ih =>
      simp only [List.map_cons, List.nodup_cons] at h
      simp only [put]
      split
      case isTrue same =>
        simpa only [List.map_cons, List.nodup_cons, ← same] using h
      case isFalse other =>
        simp only [List.map_cons, List.nodup_cons]
        refine ⟨fun again => ?_, ih h.2⟩
        rcases mem_keys_put again with same | old
        · exact other same
        · exact h.1 old

def set (m : Keyed α) (key : String) (value : α) : Keyed α :=
  ⟨put key value m.entries, distinct_put key value m.distinct⟩

/-- The values that `f` keeps, under their keys. -/
def keep (f : String → α → Option α) (entries : List (String × α)) : List (String × α) :=
  entries.filterMap fun e => (f e.1 e.2).map fun v => (e.1, v)

theorem keys_keep_sublist (f : String → α → Option α) (entries : List (String × α)) :
    ((keep f entries).map Prod.fst).Sublist (entries.map Prod.fst) := by
  induction entries with
  | nil => exact .slnil
  | cons e rest ih =>
      cases h : f e.1 e.2 with
      | none => simpa [keep, h] using ih.cons e.1
      | some v => simpa [keep, h] using ih.cons_cons e.1

def filterMap (f : String → α → Option α) (m : Keyed α) : Keyed α :=
  ⟨keep f m.entries, m.distinct.sublist (keys_keep_sublist f m.entries)⟩

def erase (m : Keyed α) (key : String) : Keyed α :=
  m.filterMap fun k v => if k = key then none else some v

/-- Every value replaced by what `f` makes of it, or dropped with its key. -/
def mapValues? (f : α → Option α) (m : Keyed α) : Keyed α := m.filterMap fun _ => f

@[simp] theorem get?_empty (key : String) : (empty : Keyed α).get? key = none := rfl

theorem find_put (key : String) (value : α) (entries : List (String × α)) (other : String) :
    find other (put key value entries) =
      if key = other then some value else find other entries := by
  induction entries with
  | nil => simp [put, find]
  | cons e rest ih =>
      by_cases hk : e.1 = key <;> by_cases ho : e.1 = other <;> grind [put, find]

@[simp] theorem get?_set (m : Keyed α) (key : String) (value : α) (other : String) :
    (m.set key value).get? other = if key = other then some value else m.get? other :=
  find_put key value m.entries other

theorem find_isSome_iff {key : String} {entries : List (String × α)} :
    (find key entries).isSome ↔ key ∈ entries.map Prod.fst := by
  induction entries with
  | nil => exact ⟨nofun, nofun⟩
  | cons e rest ih =>
      simp only [find, List.map_cons, List.mem_cons]
      split
      case isTrue same => exact ⟨fun _ => .inl same.symm, fun _ => rfl⟩
      case isFalse other => rw [ih, or_iff_right (Ne.symm other)]

theorem find_eq_none {key : String} {entries : List (String × α)} (h : key ∉ entries.map Prod.fst) :
    find key entries = none := by
  rw [← Option.not_isSome_iff_eq_none, find_isSome_iff]
  exact h

/-- A dropped entry leaves its key without a value, since no second entry has that key. -/
theorem find_keep (f : String → α → Option α) {entries : List (String × α)}
    (h : (entries.map Prod.fst).Nodup) (key : String) :
    find key (keep f entries) = (find key entries).bind (f key) := by
  induction entries with
  | nil => rfl
  | cons e rest ih =>
      simp only [List.map_cons, List.nodup_cons] at h
      have tail := ih h.2
      by_cases here : e.1 = key
      · subst here
        have gone := find_eq_none (fun again => h.1 ((keys_keep_sublist f rest).subset again))
        cases kept : f e.1 e.2 with
        | none => simpa [keep, find, kept] using gone
        | some v => simp [keep, find, kept]
      · cases kept : f e.1 e.2 with
        | none => simpa [keep, find, kept, here] using tail
        | some v => simpa [keep, find, kept, here] using tail

@[simp] theorem get?_filterMap (f : String → α → Option α) (m : Keyed α) (key : String) :
    (m.filterMap f).get? key = (m.get? key).bind (f key) :=
  find_keep f m.distinct key

@[simp] theorem get?_mapValues? (f : α → Option α) (m : Keyed α) (key : String) :
    (m.mapValues? f).get? key = (m.get? key).bind f :=
  get?_filterMap (fun _ => f) m key

@[simp] theorem get?_erase (m : Keyed α) (key other : String) :
    (m.erase key).get? other = if other = key then none else m.get? other := by
  rw [erase, get?_filterMap]
  split
  · cases m.get? other <;> rfl
  · cases m.get? other <;> rfl

end Keyed

end LinkGuard
