import LinkGuard.Settings.Reading

/-! # Slots of a record

What a table holds for a field is told by the members of that name: none, one, or too many. Members
of other names and the order of all of them do not come into it. In a row it is the place that
counts.
-/

namespace LinkGuard.Compound

variable {ν : Type} {place : Nat} {name other : String} {v : ν}
  {members members' before after : List (String × ν)}

theorem filter_eq_nil_of_absent (absent : name ∉ members.map Prod.fst) :
    members.filter (·.1 = name) = [] := by
  refine List.filter_eq_nil_iff.mpr fun m member => ?_
  rw [decide_eq_true_eq]
  rintro rfl
  exact absent (List.mem_map_of_mem member)

theorem slot_of_absent (absent : name ∉ members.map Prod.fst) :
    (table members).slot place name = some none := by
  rw [slot, filter_eq_nil_of_absent absent]

theorem filter_member (before after : List (String × ν)) (v : ν) :
    (before ++ (name, v) :: after).filter (·.1 = name) =
      before.filter (·.1 = name) ++ (name, v) :: after.filter (·.1 = name) := by
  simp only [List.filter_append, List.filter_cons, decide_true, if_true]

theorem slot_of_once (once : name ∉ (before ++ after).map Prod.fst) :
    (table (before ++ (name, v) :: after)).slot place name = some (some v) := by
  rw [List.map_append, List.mem_append, not_or] at once
  rw [slot, filter_member, filter_eq_nil_of_absent once.1, filter_eq_nil_of_absent once.2]
  rfl

theorem slot_of_twice (again : name ∈ (before ++ after).map Prod.fst) :
    (table (before ++ (name, v) :: after)).slot place name = none := by
  obtain ⟨m, member, rfl⟩ := List.mem_map.mp again
  have more : 2 ≤ ((before ++ (m.1, v) :: after).filter (·.1 = m.1)).length := by
    have one : m ∈ (before ++ after).filter (·.1 = m.1) :=
      List.mem_filter.mpr ⟨member, decide_eq_true rfl⟩
    have positive := List.length_pos_of_mem one
    rw [List.filter_append, List.length_append] at positive
    rw [filter_member, List.length_append, List.length_cons]
    omega
  rw [slot]
  split
  case h_1 none => simp [none] at more
  case h_2 found => simp [found] at more
  case h_3 => rfl

theorem slot_of_other (apart : other ≠ name) :
    (table (before ++ (other, v) :: after)).slot place name =
      (table (before ++ after)).slot place name := by
  simp only [slot, List.filter_append, List.filter_cons, apart, decide_false,
    Bool.false_eq_true, if_false]

theorem slot_of_perm (perm : members.Perm members') :
    (table members).slot place name = (table members').slot place name := by
  have same : (members.filter (·.1 = name)).Perm (members'.filter (·.1 = name)) := perm.filter _
  rw [slot, slot]
  generalize members.filter (·.1 = name) = named at same
  generalize members'.filter (·.1 = name) = named' at same
  rcases named with _ | ⟨m, _ | ⟨second, rest⟩⟩
  · rw [← same.nil_eq]
  · rw [← List.singleton_perm.mp same]
  · have length := same.length_eq
    rcases named' with _ | ⟨m', _ | ⟨second', rest'⟩⟩
    · cases length
    · cases Nat.succ.inj length
    · rfl

theorem slot_here (before after : List ν) (v : ν) :
    (row (before ++ v :: after)).slot before.length name = some (some v) := by
  rw [slot, List.getElem?_append_right (Nat.le_refl _), Nat.sub_self, List.getElem?_cons_zero]

theorem slot_elsewhere {before after : List ν} {v w : ν} (apart : place ≠ before.length) :
    (row (before ++ v :: after)).slot place name =
      (row (before ++ w :: after)).slot place name := by
  rw [slot, slot]
  rcases Nat.lt_or_gt_of_ne apart with ahead | behind
  · rw [List.getElem?_append_left ahead, List.getElem?_append_left ahead]
  · obtain ⟨n, offset⟩ := Nat.exists_eq_add_of_lt behind
    have rest : place - before.length = n + 1 := by omega
    rw [List.getElem?_append_right (Nat.le_of_lt behind),
      List.getElem?_append_right (Nat.le_of_lt behind), rest, List.getElem?_cons_succ,
      List.getElem?_cons_succ]

end LinkGuard.Compound
