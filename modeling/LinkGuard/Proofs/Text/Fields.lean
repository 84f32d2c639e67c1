import LinkGuard.Text.Fields

/-! # Fields put together again

Cutting a text and putting a separator between the fields are inverse to each other: no field holds
the separator, and a text made of such fields is cut exactly where they were put together. Where a
text is cut once, at its last separator, only the part behind it is free of separators.
-/

namespace LinkGuard.Text

variable {separator : Char} {text field rest : List Char}

theorem fields_ne_nil (separator : Char) (text : List Char) : fields separator text ≠ [] := by
  cases text with
  | nil => exact List.cons_ne_nil _ _
  | cons c rest =>
      simp only [fields]
      split
      case isTrue => exact List.cons_ne_nil _ _
      case isFalse => split <;> exact List.cons_ne_nil _ _

theorem fields_cons_of_ne {c : Char} (other : c ≠ separator) {first : List Char}
    {others : List (List Char)} (cut : fields separator rest = first :: others) :
    fields separator (c :: rest) = (c :: first) :: others := by
  simp only [fields, if_neg other, cut]

theorem fields_of_not_mem (free : separator ∉ text) : fields separator text = [text] := by
  induction text with
  | nil => rfl
  | cons c rest ih =>
      simp only [List.mem_cons, not_or] at free
      exact fields_cons_of_ne (Ne.symm free.1) (ih free.2)

theorem fields_append (free : separator ∉ field) (rest : List Char) :
    fields separator (field ++ separator :: rest) = field :: fields separator rest := by
  induction field with
  | nil => simp only [List.nil_append, fields, if_true]
  | cons c more ih =>
      simp only [List.mem_cons, not_or] at free
      exact fields_cons_of_ne (Ne.symm free.1) (ih free.2)

theorem not_mem_of_mem_fields (part : field ∈ fields separator text) : separator ∉ field := by
  induction text generalizing field with
  | nil =>
      obtain rfl := List.mem_singleton.mp part
      exact List.not_mem_nil
  | cons c rest ih =>
      by_cases cut : c = separator
      · simp only [fields, if_pos cut, List.mem_cons] at part
        rcases part with rfl | part
        · exact List.not_mem_nil
        · exact ih part
      · obtain ⟨first, others, fields_rest⟩ :=
          List.exists_cons_of_ne_nil (fields_ne_nil separator rest)
        rw [fields_cons_of_ne cut fields_rest] at part
        rcases List.mem_cons.mp part with rfl | part
        · have free : separator ∉ first := ih (by simp only [fields_rest, List.mem_cons_self])
          simp only [List.mem_cons, not_or]
          exact ⟨Ne.symm cut, free⟩
        · exact ih (by simp only [fields_rest, List.mem_cons_of_mem _ part])

theorem intercalate_fields (separator : Char) (text : List Char) :
    [separator].intercalate (fields separator text) = text := by
  induction text with
  | nil => rfl
  | cons c rest ih =>
      obtain ⟨first, others, fields_rest⟩ :=
        List.exists_cons_of_ne_nil (fields_ne_nil separator rest)
      by_cases cut : c = separator
      · simp only [fields, if_pos cut]
        rw [fields_rest] at ih ⊢
        rw [List.intercalate_cons_cons, ih, cut]
        rfl
      · rw [fields_cons_of_ne cut fields_rest]
        rw [fields_rest] at ih
        cases others with
        | nil =>
            rw [List.intercalate_singleton] at ih ⊢
            rw [ih]
        | cons second more =>
            rw [List.intercalate_cons_cons] at ih ⊢
            rw [← ih]
            rfl

theorem length_fields (separator : Char) (text : List Char) :
    (fields separator text).length = text.count separator + 1 := by
  induction text with
  | nil => rfl
  | cons c rest ih =>
      obtain ⟨first, others, fields_rest⟩ :=
        List.exists_cons_of_ne_nil (fields_ne_nil separator rest)
      by_cases cut : c = separator
      · subst cut
        simp only [fields, if_true, List.length_cons, ih, List.count_cons_self]
      · rw [fields_cons_of_ne cut fields_rest, List.count_cons_of_ne cut, ← ih, fields_rest]
        rfl

theorem splitLast_eq_none_iff : splitLast separator text = none ↔ separator ∉ text := by
  induction text with
  | nil => simp only [splitLast, List.not_mem_nil, not_false_eq_true]
  | cons c rest ih =>
      simp only [splitLast, List.mem_cons, not_or, ← ih]
      cases splitLast separator rest with
      | some parts => simp only [reduceCtorEq, and_false]
      | none =>
          simp only [ite_eq_right_iff, reduceCtorEq, imp_false, and_true, eq_comm (a := separator)]

theorem splitLast_eq_some_iff {front back : List Char} :
    splitLast separator text = some (front, back) ↔
    text = front ++ separator :: back ∧ separator ∉ back := by
  induction text generalizing front with
  | nil =>
      simp only [splitLast, reduceCtorEq, List.nil_eq, List.append_eq_nil_iff, and_false, false_and]
  | cons c rest ih =>
      simp only [splitLast]
      constructor
      · intro cut
        split at cut
        case h_1 front' back' later =>
          obtain ⟨rfl, rfl⟩ := Prod.mk.inj (Option.some.inj cut)
          obtain ⟨rfl, free⟩ := ih.mp later
          exact ⟨rfl, free⟩
        case h_2 none =>
          split at cut
          case isTrue here =>
            obtain ⟨rfl, rfl⟩ := Prod.mk.inj (Option.some.inj cut)
            exact ⟨by rw [here, List.nil_append], splitLast_eq_none_iff.mp none⟩
          case isFalse => cases cut
      · rintro ⟨whole, free⟩
        cases front with
        | nil =>
            obtain ⟨rfl, rfl⟩ := List.cons.inj whole
            rw [splitLast_eq_none_iff.mpr free]
            exact if_pos rfl
        | cons first front =>
            obtain ⟨rfl, later⟩ := List.cons.inj whole
            rw [ih.mpr ⟨later, free⟩]

theorem bytes_injective {s t : String} (same : bytes s = bytes t) : s = t := by
  apply String.toByteArray_inj.mp
  apply ByteArray.ext
  exact Array.toList_inj.mp same

theorem bytes_append (s t : String) : bytes (s ++ t) = bytes s ++ bytes t := by
  simp only [bytes, String.toUTF8_eq_toByteArray, String.toByteArray_append,
    ByteArray.toList_data_append]

end LinkGuard.Text
